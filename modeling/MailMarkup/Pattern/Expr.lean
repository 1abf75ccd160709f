import MailMarkup.Text.CharSet
import MailMarkup.Text.Word

/-!
# Expressions

What a pattern says, apart from how it is written: one character of a set, a condition on the place,
one expression after another, alternatives in the order of preference, groups whose place is noted,
and repetitions.
-/
namespace MailMarkup.Pattern

/-- Whose word characters count: those of every script, or those of ASCII only. -/
inductive Scope where
  | wide | ascii
  deriving DecidableEq, Repr

def Scope.isWord : Scope → Char → Bool
  | .wide, c => Text.isWord c
  | .ascii, c => Text.isLetter c || Text.isDigit c || c == '_'

/-- Conditions on a place that read nothing. With `crlf`, a carriage return ends a line too, and the
two characters of a line end are not taken apart. -/
inductive Edge where
  | textStart | textEnd
  | lineStart (crlf : Bool) | lineEnd (crlf : Bool)
  | wordEdge (s : Scope) | notWordEdge (s : Scope)
  | wordStart (s : Scope) | wordEnd (s : Scope)
  | noWordBefore (s : Scope) | noWordAfter (s : Scope)
  deriving DecidableEq, Repr

def Edge.holds (before after : Option Char) : Edge → Bool
  | .textStart => before.isNone
  | .textEnd => after.isNone
  | .lineStart false => before.all (· == '\n')
  | .lineStart true => before.all fun c => c == '\n' || c == '\r' && after != some '\n'
  | .lineEnd false => after.all (· == '\n')
  | .lineEnd true => after.all fun c => c == '\r' || c == '\n' && before != some '\r'
  | .wordEdge s => before.any s.isWord != after.any s.isWord
  | .notWordEdge s => before.any s.isWord == after.any s.isWord
  | .wordStart s => !before.any s.isWord && after.any s.isWord
  | .wordEnd s => before.any s.isWord && !after.any s.isWord
  | .noWordBefore s => !before.any s.isWord
  | .noWordAfter s => !after.any s.isWord

inductive Expr where
  | empty
  | one (set : CharSet)
  | edge (e : Edge)
  | both (a b : Expr)
  | either (a b : Expr)
  | group (i : Nat) (a : Expr)
  /-- At least `least` times, and at most `extra` times more if that is bounded. -/
  | repeated (a : Expr) (least : Nat) (extra : Option Nat) (greedy : Bool)
  deriving DecidableEq, Repr

namespace Expr

def readsNothing : Expr → Bool
  | .empty | .edge _ => true
  | .one _ => false
  | .both a b | .either a b => a.readsNothing && b.readsNothing
  | .group _ a => a.readsNothing
  | .repeated a least extra _ => a.readsNothing || least == 0 && extra == some 0

def readsSome : Expr → Bool
  | .empty | .edge _ => false
  | .one _ => true
  | .both a b => a.readsSome || b.readsSome
  | .either a b => a.readsSome && b.readsSome
  | .group _ a => a.readsSome
  | .repeated a least _ _ => 0 < least && a.readsSome

/-- A repetition. What reads nothing is there at most once. -/
def times (a : Expr) (least : Nat) (extra : Option Nat) (greedy : Bool) : Expr :=
  let (least, extra) :=
    if !a.readsNothing then (least, extra)
    else if least = 0 then (0, some (min 1 (extra.getD 1)))
    else (1, some 0)
  if extra = some 0 && least = 0 then .empty
  else if extra = some 0 && least = 1 then a
  else .repeated a least extra greedy

def parts : Expr → List Expr
  | .empty => []
  | .both a b => a.parts ++ b.parts
  | a => [a]

def sequence : List Expr → Expr
  | [] => .empty
  | [a] => a
  | a :: as => .both a (sequence as)

/-- Alternatives, the preferred ones first. -/
def choice : List Expr → Expr
  | [] => .empty
  | [a] => a
  | a :: as => .either a (choice as)

/-- How many parts two sequences have in common at their start. -/
def sharedLength : List Expr → List Expr → Nat
  | a :: as, b :: bs => if a = b then sharedLength as bs + 1 else 0
  | _, _ => 0

/-- Alternatives, the preferred ones first. A start that several sequences all share is read once,
before the choice between them is made. -/
def alternatives : List Expr → Expr
  | [] => .empty
  | [a] => a
  | a :: as =>
    let seqs := (a :: as).map parts
    let shared :=
      if seqs.any fun s => s.length < 2 then 0
      else as.foldl (fun n b => min n (sharedLength a.parts b.parts)) a.parts.length
    if shared = 0 then choice (a :: as)
    else
      sequence (a.parts.take shared ++ [choice (seqs.map fun s => sequence (s.drop shared))])

/-- How many nodes an expression takes when its repetitions are written out. -/
def weight : Expr → Nat
  | .empty => 0
  | .one set => 1 + set.ranges.length / 4
  | .edge _ => 1
  | .both a b => a.weight + b.weight
  | .either a b => a.weight + b.weight + 1
  | .group _ a => a.weight + 2
  | .repeated a least none _ => (a.weight + 1) * max least 1 + 1
  | .repeated a least (some extra) _ => a.weight * least + (a.weight + 1) * extra

end Expr
end MailMarkup.Pattern
