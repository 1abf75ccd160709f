import MailMarkup.Rule.Tags

/-!
# Whether a repair keeps the markup whole

A repair may not leave broken tokens behind, nor leave the opening and closing tags less balanced
than they were.
-/
namespace MailMarkup.Repair
open Text

def brokenTokens : List Text := ["<<", ">>", "<//", "//>"].map String.toList

def isBroken (t : Text) : Bool := brokenTokens.any (contains t ·)

/-- Opening and closing tags: group 1 is the slash of a closing tag, group 2 the name, group 3 the
slash of a tag that closes itself. -/
def tagSource : String := "<(/?)([a-zA-Z][a-zA-Z0-9]*)\\b[^<>]*?(/?)>"

/-- What a tag adds to the balance of its name: void and self-closing elements add nothing. -/
def weight? (m : Match) : Option (Text × Int) :=
  let name := lower (m.group 2)
  let closing := !(m.group 1).isEmpty
  let selfClosed := !(m.group 3).isEmpty
  if Reader.voidTags.contains name || (selfClosed && !closing) then none
  else some (name, if closing then -1 else 1)

def bump (bs : List (Text × Int)) (w : Text × Int) : List (Text × Int) :=
  if bs.any (·.1 == w.1) then bs.map fun b => if b.1 == w.1 then (b.1, b.2 + w.2) else b
  else bs ++ [w]

/-- The balances of all names, without their signs, summed. -/
def imbalance (p : Pattern) (html : Text) : Nat :=
  (((p.occurrences html).filterMap weight?).foldl bump []).foldl (fun n b => n + b.2.natAbs) 0

def isSound (before after : Text) : Task Bool := do
  if isBroken after then return false
  else
    let p ← .askWith tagSource .none
    let old := imbalance p before
    let p ← .askWith tagSource .none
    return imbalance p after ≤ old

end MailMarkup.Repair
