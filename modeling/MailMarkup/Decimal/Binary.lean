/-!
# Doubles as exact numbers

A finite double is a natural number times a power of two. Everything that writes doubles works on
that exact value.
-/
namespace MailMarkup

inductive Binary where
  | nan
  | infinite (negative : Bool)
  | finite (negative : Bool) (mantissa : Nat) (exponent : Int)
  deriving DecidableEq, Repr

namespace Binary

def ofFloat (x : Float) : Binary :=
  let bits := x.toBits.toNat
  let negative := Nat.pow 2 63 ≤ bits
  let field := bits / Nat.pow 2 52 % Nat.pow 2 11
  let fraction := bits % Nat.pow 2 52
  if field = 2047 then (if fraction = 0 then .infinite negative else .nan)
  else if field = 0 then .finite negative fraction (-1074)
  else .finite negative (fraction + Nat.pow 2 52) (Int.ofNat field - 1075)

/-- `mantissa * 2 ^ exponent * 10 ^ places` as a quotient of naturals. -/
def ratio (mantissa : Nat) (exponent : Int) (places : Int) : Nat × Nat :=
  let num := mantissa * Nat.pow 2 exponent.toNat * Nat.pow 10 places.toNat
  let den := Nat.pow 2 (-exponent).toNat * Nat.pow 10 (-places).toNat
  (num, den)

/-- The nearest whole number that a word of `bits` bits can hold, halves away from zero. NaN gives
zero. -/
def nearestWord (bits : Nat) : Binary → Nat
  | .nan => 0
  | .infinite negative => if negative then 0 else Nat.pow 2 bits - 1
  | .finite negative mantissa exponent =>
    if negative then 0
    else
      let (num, den) := ratio mantissa exponent 0
      min ((2 * num + den) / (2 * den)) (Nat.pow 2 bits - 1)

end Binary

/-- The order of doubles by sign, then magnitude; zeros and NaNs included, so it is total. -/
def orderKey (x : Float) : Int :=
  let bits := x.toBits.toNat
  if Nat.pow 2 63 ≤ bits then -Int.ofNat (bits - Nat.pow 2 63) - 1 else Int.ofNat bits

end MailMarkup
