import MailMarkup.Decimal.Binary

/-!
# Scores

A document starts at 100 and loses a penalty for each finding, up to a ceiling. The arithmetic is
given by a class, so that the same definitions hold for doubles, as they are run, and for exact
numbers.
-/
namespace MailMarkup

/-- What scoring needs of numbers. `min` and `max` pass over an operand that is no number, and
`round` takes halves away from zero. -/
class Amount (α : Type) where
  ofNat : Nat → α
  add : α → α → α
  sub : α → α → α
  mul : α → α → α
  min : α → α → α
  max : α → α → α
  lt : α → α → Bool
  le : α → α → Bool
  round : α → Nat

instance : Amount Float where
  ofNat := Float.ofNat
  add := (· + ·)
  sub := (· - ·)
  mul := (· * ·)
  min a b := if a.isNaN then b else if b.isNaN then a else if a < b then a else b
  max a b := if a.isNaN then b else if b.isNaN then a else if a < b then b else a
  lt a b := a < b
  le a b := a ≤ b
  round x := (Binary.ofFloat x).nearestWord 32

/-- Penalties for one finding of each severity, and the ceiling on their sum. -/
structure Scoring (α : Type) where
  error : α
  warning : α
  info : α
  ceiling : α
  deriving Inhabited

namespace Scoring
variable {α : Type} [Amount α]

def standard : Scoring α :=
  ⟨Amount.ofNat 15, Amount.ofNat 5, Amount.ofNat 1, Amount.ofNat 100⟩

def penalty (s : Scoring α) (errors warnings infos : Nat) : α :=
  let total := Amount.add
    (Amount.add (Amount.mul (Amount.ofNat errors) s.error)
      (Amount.mul (Amount.ofNat warnings) s.warning))
    (Amount.mul (Amount.ofNat infos) s.info)
  Amount.min total s.ceiling

def score (s : Scoring α) (errors warnings infos : Nat) : Nat :=
  Amount.round
    (Amount.max (Amount.sub (Amount.ofNat 100) (s.penalty errors warnings infos)) (Amount.ofNat 0))

/-- Graver findings cost more, and none costs less than nothing. -/
def isOrdered (s : Scoring α) : Bool :=
  Amount.lt s.warning s.error && Amount.lt s.info s.warning && Amount.le (Amount.ofNat 0) s.info

def hasCeiling (s : Scoring α) : Bool := !Amount.le s.ceiling (Amount.ofNat 0)

end Scoring
end MailMarkup
