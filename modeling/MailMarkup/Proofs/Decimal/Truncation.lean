import Mathlib

/-!
# Doubles cut to whole numbers

A finite double stands for an exact number, and cutting it to a word gives no more than the whole
part of that number: what is negative becomes zero, and what is too large the greatest word.
-/
namespace MailMarkup.Decimal
open Float.Model

/-- The number a finite double stands for. -/
def value? (x : Float) : Option ℚ :=
  match x.toModel.unpack with
  | .finite sign mantissa exponent _ => some (sign.apply mantissa * 2 ^ exponent)
  | .zero _ => some 0
  | .infinity _ => none
  | .notANumber => none

private theorem mantissa_shiftRight (em : UnpackedFloat.ExtendedMantissa) (n : ℕ) :
    (em >>> n).mantissa = em.mantissa / 2 ^ n := by
  change (Nat.repeat UnpackedFloat.ExtendedMantissa.shiftRightOne n em).mantissa = _
  induction n with
  | zero => simp [Nat.repeat]
  | succ n ih =>
    rw [Nat.repeat, UnpackedFloat.ExtendedMantissa.shiftRightOne, ih, Nat.div_div_eq_div_mul,
      Nat.pow_succ]

private theorem roundToInt_eq (sign : UnpackedFloat.Sign) (m : ℕ) (e : ℤ) :
    UnpackedFloat.roundToInt sign m e =
      sign.apply (m * 2 ^ e.toNat / 2 ^ (-e).toNat : ℕ) := by
  have hs : (0 - (e - (e.toNat : ℤ))).toNat = (-e).toNat := by omega
  simp only [UnpackedFloat.roundToInt, UnpackedFloat.decreaseExponent,
    UnpackedFloat.shiftToExponent, mantissa_shiftRight, Nat.shiftLeft_eq, Int.sub_zero, hs]
  rfl

private theorem shifted_le (m : ℕ) (e : ℤ) :
    ((m * 2 ^ e.toNat / 2 ^ (-e).toNat : ℕ) : ℚ) ≤ m * 2 ^ e := by
  rcases Int.le_total 0 e with he | he
  · have h1 : (-e).toNat = 0 := by omega
    have h2 : (2 : ℚ) ^ e = 2 ^ e.toNat := by
      rw [← zpow_natCast, Int.toNat_of_nonneg he]
    simp [h1, h2]
  · have h1 : e.toNat = 0 := by omega
    have h2 : (2 : ℚ) ^ e = (2 ^ (-e).toNat)⁻¹ := by
      rw [← zpow_natCast, ← zpow_neg, Int.toNat_of_nonneg (by omega), neg_neg]
    rw [h1, h2, pow_zero, mul_one, ← div_eq_mul_inv]
    exact_mod_cast Nat.cast_div_le (α := ℚ) (m := m) (n := 2 ^ (-e).toNat)

private theorem toNat_ofNatClamp_le (n : ℕ) : (UInt64.ofNatClamp n).toNat ≤ n := by
  unfold UInt64.ofNatClamp
  split
  · simp
  · simp only [UInt64.toNat_ofNatLT]
    omega

theorem toUInt64_le_floor {x : Float} {q : ℚ} (h : value? x = some q) :
    x.toUInt64.toNat ≤ ⌊q⌋₊ := by
  refine (toNat_ofNatClamp_le _).trans ?_
  unfold value? at h
  change (x.toModel.unpack.toInt 0 _).toNat ≤ _
  cases hx : x.toModel.unpack with
  | finite sign m e hm =>
    simp only [hx, Option.some.injEq] at h
    subst h
    rw [UnpackedFloat.toInt, roundToInt_eq]
    have hs := shifted_le m e
    generalize m * 2 ^ e.toNat / 2 ^ (-e).toNat = k at hs
    cases sign with
    | negative => simp only [UnpackedFloat.Sign.apply]; omega
    | positive => exact Nat.le_floor hs
  | zero sign => simp [UnpackedFloat.toInt]
  | infinity sign => simp [hx] at h
  | notANumber => simp [hx] at h

end MailMarkup.Decimal
