import MailMarkup.Text.Basic

/-!
# Numbers read from text
-/
namespace MailMarkup.Decimal

/-- The natural number written by ASCII digits; there is at least one. -/
def natural? (t : Text) : Option Nat :=
  if t.isEmpty || !t.all Text.isDigit then none
  else some (t.foldl (fun n c => 10 * n + (c.toNat - 48)) 0)

/-- As `natural?`, allowing a plus sign, for numbers below `2 ^ bits`. -/
def word? (bits : Nat) (t : Text) : Option Nat :=
  let t := match t with
    | '+' :: t => t
    | _ => t
  match natural? t with
  | some n => if n < Nat.pow 2 bits then some n else none
  | none => none

def toFloat (digits : Nat) (exponent : Int) : Float :=
  -- beyond these exponents every number of this many digits overflows or vanishes
  let size := Int.ofNat (toString digits).length
  if digits = 0 then 0.0
  else if 400 < exponent + size then 1.0 / 0.0
  else if exponent + size < -400 then 0.0
  else if exponent < 0 then Float.ofScientific digits true (-exponent).toNat
  else Float.ofScientific digits false exponent.toNat

def simple? (t : Text) : Option Float :=
  match Text.cut? ['.'] t with
  | none => (natural? t).map fun n => toFloat n 0
  | some (whole, part) =>
    match natural? whole, natural? part with
    | some _, some _ => (natural? (whole ++ part)).map fun n => toFloat n (-Int.ofNat part.length)
    | _, _ => none

end MailMarkup.Decimal
