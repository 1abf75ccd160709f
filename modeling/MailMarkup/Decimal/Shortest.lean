import MailMarkup.Decimal.Binary

/-!
# The shortest decimal of a double

Of the decimals that read back as the double, the ones with the fewest digits are taken, and of
those the nearest. How the digits are laid out is left to the callers.
-/
namespace MailMarkup.Decimal

/-- The greatest `k` with `10 ^ k * den ≤ num`, searched upwards from `-330`. -/
def magnitude (num den : Nat) : Int :=
  let rec go : Nat → Int → Int
    | 0, k => k
    | n + 1, k =>
      if den * Nat.pow 10 (k + 1).toNat ≤ num * Nat.pow 10 (-(k + 1)).toNat then go n (k + 1) else k
  go 640 (-330)

structure Digits where
  digits : Nat
  exponent : Int
  deriving DecidableEq, Repr

/-- Whether `d * 10 ^ e` rounds to `m * 2 ^ q`: it lies within half a step of it, and on the edge
only where the mantissa is even. Below a power of two the step is half as wide. -/
def readsBack (m : Nat) (q : Int) (d : Nat) (e : Int) : Bool :=
  -- all values are scaled by 4 * 2 ^ (-q) * 10 ^ (-e) where these exponents are negative
  let value := 4 * m * Nat.pow 2 q.toNat * Nat.pow 10 (-e).toNat
  let step := Nat.pow 2 q.toNat * Nat.pow 10 (-e).toNat
  let below := if m = Nat.pow 2 52 && q != -1074 then step else 2 * step
  let above := 2 * step
  let given := 4 * d * Nat.pow 10 e.toNat * Nat.pow 2 (-q).toNat
  if m % 2 = 0 then value ≤ given + below && given ≤ value + above
  else value < given + below && given < value + above

/-- The nearest decimal with `n` significant digits that reads back, if there is one. -/
def withDigits? (m : Nat) (q : Int) (k : Int) (n : Nat) : Option Digits :=
  let e : Int := k + 1 - Int.ofNat n
  let (num, den) := Binary.ratio m q (-e)
  let lo := num / den
  let fits (d : Nat) := readsBack m q d e
  match fits lo, fits (lo + 1) with
  | true, true =>
    let up := 2 * (num % den)
    some ⟨if up < den || (up = den && lo % 2 = 0) then lo else lo + 1, e⟩
  | true, false => some ⟨lo, e⟩
  | false, true => some ⟨lo + 1, e⟩
  | false, false => none

def Digits.trimmed (d : Digits) : Digits :=
  let rec go : Nat → Nat → Int → Digits
    | 0, n, e => ⟨n, e⟩
    | f + 1, n, e => if n % 10 = 0 && n != 0 then go f (n / 10) (e + 1) else ⟨n, e⟩
  go 20 d.digits d.exponent

def shortest (m : Nat) (q : Int) : Digits :=
  let (num, den) := Binary.ratio m q 0
  let k := magnitude num den
  let rec go : Nat → Nat → Digits
    | 0, _ => ⟨num / den, 0⟩
    | f + 1, n => (withDigits? m q k n).getD (go f (n + 1))
  (go 18 1).trimmed

def zeros (n : Nat) : String := "".pushn '0' n

/-- The digits written out without an exponent; `point` keeps a point after whole numbers. -/
def positional (point : Bool) (d : Digits) : String :=
  let s := toString d.digits
  if 0 ≤ d.exponent then
    s ++ zeros d.exponent.toNat ++ (if point then ".0" else "")
  else
    let places := (-d.exponent).toNat
    let s := if s.length ≤ places then zeros (places + 1 - s.length) ++ s else s
    let cs := s.toList
    let whole := cs.length - places
    String.ofList (cs.take whole) ++ "." ++ String.ofList (cs.drop whole)

def scientific (d : Digits) : String :=
  let s := (toString d.digits).toList
  let e := d.exponent + Int.ofNat (s.length - 1)
  let tail := s.drop 1
  String.ofList (s.take 1) ++ (if tail.isEmpty then "" else "." ++ String.ofList tail) ++ "e" ++
    toString e

/-- A double as it stands in messages: no exponent, no point after whole numbers. -/
def plain (x : Float) : String :=
  match Binary.ofFloat x with
  | .nan => "NaN"
  | .infinite neg => if neg then "-inf" else "inf"
  | .finite neg m q =>
    (if neg then "-" else "") ++ if m = 0 then "0" else positional false (shortest m q)

/-- A double as it stands in data: always with a point or an exponent, positional from `1e-5` up to
below `1e16`. There is no form for infinite values and NaN. -/
def data? (x : Float) : Option String :=
  match Binary.ofFloat x with
  | .nan => none
  | .infinite _ => none
  | .finite neg m q =>
    some <| (if neg then "-" else "") ++
      if m = 0 then "0.0"
      else
        let d := shortest m q
        let top := d.exponent + Int.ofNat (toString d.digits).length
        if -5 < top && top ≤ 16 then positional true d else scientific d

end MailMarkup.Decimal
