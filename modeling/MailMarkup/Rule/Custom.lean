import MailMarkup.Rule.Basic

/-!
# Rules put together from parts

Checks and repairs that a rule can be made of without writing it out.
-/
namespace MailMarkup

inductive CustomCheck where
  | none
  | always (message : String) (suggestion : Option String)
  | containing (needle : Text) (message : String)
  | matching (source : String) (flags : Pattern.Flags) (message : String)
  | failing (message : String)
  | crashing (message : String)

inductive CustomFix where
  | keep
  | replaceAll (old new : Text)
  | replaceFirst (old new : Text)
  | append (extra : Text)
  | prepend (extra : Text)
  | double
  | failing (message : String)
  | crashing (message : String)

namespace Custom
open Text

/-- Where a text occurs, from left to right without overlap; the empty text occurs everywhere. -/
def places (needle : Text) : Nat → Cursor → List Position → List Position
  | 0, _, acc => acc.reverse
  | n + 1, c, acc =>
    if startsWith c.rest needle then
      if c.atEnd then (c.pos :: acc).reverse
      else places needle n (c.advance (max needle.length 1)) (c.pos :: acc)
    else if c.atEnd then acc.reverse
    else places needle n c.next acc

def check : CustomCheck → TextCheck
  | .none => fun _ _ => .done []
  | .always message suggestion => fun _ info =>
    .done [{ Finding.of info message with suggestion }]
  | .containing needle message => fun s info =>
    .done <| (places needle (s.html.length + 1) (.start s.html) []).map
      (Finding.of info message).at_
  | .matching source flags message => fun s info => do
    let p ← .askWith source flags
    return (p.occurrences s.html).map fun m => (Finding.of info message).at_ m.start.pos
  | .failing message => fun _ _ => .fail (.failed message)
  | .crashing message => fun _ _ => .fail (.crashed message)

def replaceEvery (old new t : Text) : Text :=
  if old.isEmpty then new ++ t.flatMap (· :: new) else replace old new t

def replaceOnce (old new t : Text) : Text :=
  match cut? old t with
  | some (pre, post) => pre ++ new ++ post
  | none => t

def fix : CustomFix → Fix
  | .keep => fun s => .done s.html
  | .replaceAll old new => fun s => .done (replaceEvery old new s.html)
  | .replaceFirst old new => fun s => .done (replaceOnce old new s.html)
  | .append extra => fun s => .done (s.html ++ extra)
  | .prepend extra => fun s => .done (extra ++ s.html)
  | .double => fun s => .done (s.html ++ s.html)
  | .failing message => fun _ => .fail (.failed message)
  | .crashing message => fun _ => .fail (.crashed message)

def treeCheck (q : Query) : TreeCheck := fun _ _ info => do
  let es ← .elements q
  return es.map fun e =>
    (Finding.of info ("found <" ++ String.ofList e.tag ++ ">")).at_ e.start

end Custom

/-- A rule made of parts. A repair makes it fixable. -/
def Rule.custom (info : RuleInfo) (check : CustomCheck) (tree : Option Query)
    (fix : Option CustomFix) : Rule where
  info := if fix.isSome then { info with fixable := true } else info
  check := Custom.check check
  treeCheck := tree.map Custom.treeCheck
  fix := fix.map Custom.fix

end MailMarkup
