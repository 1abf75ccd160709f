import MailMarkup.Decimal.Binary

/-!
# A set number of decimal places
-/
namespace MailMarkup.Decimal

/-- The quotient rounded to the nearest natural, ties to the even one. -/
def roundDiv (num den : Nat) : Nat :=
  let d := num / den
  let r := num % den
  if 2 * r < den then d else if den < 2 * r then d + 1 else if d % 2 = 0 then d else d + 1

/-- The exact value of a double rounded to `places` places. -/
def fixed (places : Nat) (x : Float) : String :=
  match Binary.ofFloat x with
  | .nan => "NaN"
  | .infinite neg => if neg then "-inf" else "inf"
  | .finite neg m q =>
    let (num, den) := Binary.ratio m q places
    let s := toString (roundDiv num den)
    let s := if s.length ≤ places then "".pushn '0' (places + 1 - s.length) ++ s else s
    let cs := s.toList
    let whole := String.ofList (cs.take (cs.length - places))
    (if neg then "-" else "") ++
      if places = 0 then whole else whole ++ "." ++ String.ofList (cs.drop (cs.length - places))

end MailMarkup.Decimal
