import Mathlib
import MailMarkup.Decimal.Binary

/-!
# The order of doubles

Doubles are put in order by their bits, as whole numbers. Where two doubles compare as less, the
whole numbers do: a double is a sign and a magnitude, and of two magnitudes the greater one has the
greater exponent or, with the same exponent, the greater mantissa.
-/
namespace MailMarkup.Decimal
open Float.Model

section bits
variable (b : BitVec Format.binary64.numBits)

private theorem toNat_unpackExponent :
    (UnpackedFloat.unpackExponent b).toNat = b.toNat / 2 ^ 52 % 2 ^ 11 := by
  rw [UnpackedFloat.unpackExponent_def, BitVec.extractLsb'_toNat, Nat.shiftRight_eq_div_pow]

private theorem toNat_unpackMantissa :
    (UnpackedFloat.unpackMantissa b).toNat = b.toNat % 2 ^ 52 := by
  simp [UnpackedFloat.unpackMantissa, BitVec.extractLsb]

private theorem unpackSign_eq_zero_iff :
    UnpackedFloat.unpackSign b = 0#1 ↔ b.toNat < 2 ^ 63 := by
  have hlt : b.toNat < 2 ^ 64 := b.isLt
  rw [← BitVec.toNat_inj, UnpackedFloat.unpackSign_def, BitVec.extractLsb'_toNat,
    Nat.shiftRight_eq_div_pow, BitVec.toNat_ofNat]
  change b.toNat / 2 ^ 63 % 2 = 0 ↔ _
  omega

private theorem toNat_one_append :
    (1#1 ++ UnpackedFloat.unpackMantissa b).toNat =
      2 ^ 52 + (UnpackedFloat.unpackMantissa b).toNat := by
  have hlt : (UnpackedFloat.unpackMantissa b).toNat < 2 ^ 52 :=
    (UnpackedFloat.unpackMantissa b).isLt
  change 2 ^ 52 ||| (UnpackedFloat.unpackMantissa b).toNat = _
  rw [Nat.or_comm, Nat.or_two_pow_eq_add_of_lt hlt, Nat.add_comm]

end bits

/-- The bits of a double without its sign. -/
def unsigned (x : Float) : Nat := x.toBits.toNat % 2 ^ 63

/-- The sign of a double, as its bits tell it. -/
def sign (x : Float) : UnpackedFloat.Sign :=
  if x.toBits.toNat < 2 ^ 63 then .positive else .negative

section fields
variable (x : Float)

private abbrev bits : BitVec Format.binary64.numBits := x.toModel.toBits.toBitVec

private theorem sign_eq :
    UnpackedFloat.Sign.ofBitVec (UnpackedFloat.unpackSign (bits x)) = sign x := by
  have hb : x.toBits.toNat = (bits x).toNat := rfl
  rw [UnpackedFloat.Sign.ofBitVec, sign, hb]
  simp only [unpackSign_eq_zero_iff]

private theorem unsigned_eq :
    unsigned x = (UnpackedFloat.unpackExponent (bits x)).toNat * 2 ^ 52 +
      (UnpackedFloat.unpackMantissa (bits x)).toNat := by
  have hb : x.toBits.toNat = (bits x).toNat := rfl
  rw [toNat_unpackExponent, toNat_unpackMantissa, unsigned, hb]
  omega

end fields

theorem orderKey_of_positive {x : Float} (h : sign x = .positive) :
    orderKey x = unsigned x := by
  have hpow : Nat.pow 2 63 = 2 ^ 63 := rfl
  have hlt : x.toBits.toNat < 2 ^ 63 := by
    unfold sign at h
    split at h
    · assumption
    · exact absurd h nofun
  simp only [orderKey, unsigned, hpow, Int.ofNat_eq_natCast]
  rw [if_neg (by omega), Nat.mod_eq_of_lt hlt]

theorem orderKey_of_negative {x : Float} (h : sign x = .negative) :
    orderKey x = -unsigned x - 1 := by
  have hpow : Nat.pow 2 63 = 2 ^ 63 := rfl
  have hlt : x.toBits.toNat < 2 ^ 64 := x.toBits.toNat_lt
  have hle : ¬ x.toBits.toNat < 2 ^ 63 := by
    unfold sign at h
    split at h
    · exact absurd h nofun
    · assumption
  have hmod : x.toBits.toNat % 2 ^ 63 = x.toBits.toNat - 2 ^ 63 := by omega
  simp only [orderKey, unsigned, hpow, hmod, Int.ofNat_eq_natCast]
  rw [if_pos (by omega)]

/-- What a double stands for, told by its magnitude: the greatest is infinity, the least is zero,
and in between a mantissa and an exponent of two can be read off. -/
inductive Unpacks (x : Float) : UnpackedFloat → Prop where
  | notANumber : Unpacks x .notANumber
  | infinity (greatest : unsigned x = 2047 * 2 ^ 52) : Unpacks x (.infinity (sign x))
  | zero (least : unsigned x = 0) : Unpacks x (.zero (sign x))
  | finite {m k : Nat} {e : Int} {pos : 0 < m} (exponent : e = k - 1074)
      (between : unsigned x = k * 2 ^ 52 + m) (le : m < 2 ^ 53) (full : k = 0 ∨ 2 ^ 52 ≤ m)
      (lt : unsigned x < 2047 * 2 ^ 52) : Unpacks x (.finite (sign x) m e pos)

theorem unpacks (x : Float) : Unpacks x x.toModel.unpack := by
  have hs := sign_eq x
  have hmag := unsigned_eq x
  change Unpacks x (UnpackedFloat.unpack Format.binary64 (bits x))
  generalize bits x = b at hs hmag ⊢
  unfold UnpackedFloat.unpack
  dsimp only
  rw [hs]
  have hbias : (Format.binary64.exponentBias : Int) = 1023 := rfl
  have hlt : (UnpackedFloat.unpackMantissa b).toNat < 2 ^ 52 :=
    (UnpackedFloat.unpackMantissa b).isLt
  have hle : (UnpackedFloat.unpackExponent b).toNat < 2 ^ 11 :=
    (UnpackedFloat.unpackExponent b).isLt
  split_ifs with hall hnone hleast hnone
  · refine .infinity ?_
    rw [hmag, hall, hnone]
    rfl
  · exact .notANumber
  · refine .zero ?_
    rw [hmag, hleast, hnone]
    rfl
  · have he0 : (UnpackedFloat.unpackExponent b).toNat = 0 := by rw [hleast]; rfl
    refine .finite (k := 0) ?_ ?_ ?_ (.inl rfl) ?_
    · rw [he0, hbias]
      rfl
    · rw [hmag, he0]
    · exact hlt.trans (by norm_num)
    · rw [hmag, he0]
      omega
  · have hpos : (UnpackedFloat.unpackExponent b).toNat ≠ 0 := by
      intro h0
      exact hleast (BitVec.eq_of_toNat_eq h0)
    have hmax : (UnpackedFloat.unpackExponent b).toNat ≠ 2047 := by
      intro h0
      exact hall (BitVec.eq_of_toNat_eq h0)
    have hone := toNat_one_append b
    refine .finite (k := (UnpackedFloat.unpackExponent b).toNat - 1) ?_ ?_ ?_ (.inr ?_) ?_
    · rw [hbias]
      push_cast
      omega
    · rw [hmag, hone]
      omega
    · rw [hone]
      omega
    · rw [hone]
      omega
    · rw [hmag]
      omega

private theorem compare_then_eq_lt {e e' : Int} {m m' : Nat}
    (h : (compare e e').then (compare m m') = .lt) : e < e' ∨ e = e' ∧ m < m' := by
  rw [Ordering.then_eq_lt, compare_lt_iff_lt, compare_eq_iff_eq, compare_lt_iff_lt] at h
  exact h

/-- Two doubles of one sign, the first of which has the lesser exponent or mantissa. -/
private theorem shifted_lt {k k' m m' : Nat} {e e' : Int} (he : e = k - 1074) (he' : e' = k' - 1074)
    (hm : m < 2 ^ 53) (hk' : k' = 0 ∨ 2 ^ 52 ≤ m') (h : e < e' ∨ e = e' ∧ m < m') :
    k * 2 ^ 52 + m < k' * 2 ^ 52 + m' := by
  omega

section compare
variable {x y : Float} {u v : UnpackedFloat}

private theorem unsigned_lt (hx : Unpacks x u) (hy : Unpacks y v) (hsx : sign x = .positive)
    (hsy : sign y = .positive) (h : u.compare v = some .lt) : unsigned x < unsigned y := by
  cases hx <;> cases hy <;>
    simp only [hsx, hsy, UnpackedFloat.compare, Option.some.injEq, reduceCtorEq] at h
  case finite.finite he hb hm _ _ _ _ _ _ he' hb' _ hk' _ =>
    rw [hb, hb']
    exact shifted_lt he he' hm hk' (compare_then_eq_lt h)
  all_goals omega

private theorem unsigned_gt (hx : Unpacks x u) (hy : Unpacks y v) (hsx : sign x = .negative)
    (hsy : sign y = .negative) (h : u.compare v = some .lt) : unsigned y < unsigned x := by
  cases hx <;> cases hy <;>
    simp only [hsx, hsy, UnpackedFloat.compare, Option.some.injEq, reduceCtorEq] at h
  case finite.finite he hb _ hk _ _ _ _ _ he' hb' hm' _ _ =>
    rw [Ordering.swap_then, Std.OrientedOrd.eq_swap.symm, Std.OrientedOrd.eq_swap.symm] at h
    rw [hb, hb']
    exact shifted_lt he' he hm' hk (compare_then_eq_lt h)
  all_goals omega

private theorem not_positive_lt_negative (hx : Unpacks x u) (hy : Unpacks y v)
    (hsx : sign x = .positive) (hsy : sign y = .negative) : u.compare v ≠ some .lt := by
  intro h
  cases hx <;> cases hy <;>
    simp only [hsx, hsy, UnpackedFloat.compare, Option.some.injEq, reduceCtorEq] at h

end compare

/-- Doubles in order are in the order of their keys. -/
theorem orderKey_lt_of_lt {x y : Float} (h : x < y) : orderKey x < orderKey y := by
  have hc : x.toModel.unpack.compare y.toModel.unpack = some .lt :=
    eq_of_beq (of_decide_eq_true h)
  cases hsx : sign x <;> cases hsy : sign y
  case positive.positive =>
    have hlt := unsigned_lt (unpacks x) (unpacks y) hsx hsy hc
    rw [orderKey_of_positive hsx, orderKey_of_positive hsy]
    omega
  case positive.negative =>
    exact absurd hc (not_positive_lt_negative (unpacks x) (unpacks y) hsx hsy)
  case negative.positive =>
    rw [orderKey_of_negative hsx, orderKey_of_positive hsy]
    omega
  case negative.negative =>
    have hlt := unsigned_gt (unpacks x) (unpacks y) hsx hsy hc
    rw [orderKey_of_negative hsx, orderKey_of_negative hsy]
    omega

end MailMarkup.Decimal
