import MailMarkup.Proofs.Decimal.Order
import MailMarkup.Proofs.Decimal.Truncation

/-!
# Doubles and the numbers they stand for

Finite doubles compare as the exact numbers they stand for, and the whole number nearest to a double
is the one nearest to that number.
-/
namespace MailMarkup.Decimal
open Float.Model

/-- Of two mantissas with their exponents, the greater exponent wins, as a mantissa that does not
fill its width has the least exponent there is. -/
private theorem dyadic_lt {k k' m m' : ℕ} {e e' : ℤ} (he : e = k - 1074) (he' : e' = k' - 1074)
    (hm : m < 2 ^ 53) (hk' : k' = 0 ∨ 2 ^ 52 ≤ m') (h : e < e' ∨ e = e' ∧ m < m') :
    (m : ℚ) * 2 ^ e < m' * 2 ^ e' := by
  have hpos : (0 : ℚ) < 2 ^ e := by positivity
  rcases h with h | ⟨rfl, h⟩
  · have hfull : 2 ^ 52 ≤ m' := hk'.resolve_left (by omega)
    have hstep : (2 : ℚ) * 2 ^ e ≤ 2 ^ e' := by
      rw [← zpow_one_add₀ two_ne_zero]
      exact zpow_le_zpow_right₀ one_le_two (by omega)
    calc (m : ℚ) * 2 ^ e < 2 ^ 53 * 2 ^ e := by
          exact mul_lt_mul_of_pos_right (by exact_mod_cast hm) hpos
      _ = 2 ^ 52 * (2 * 2 ^ e) := by ring
      _ ≤ m' * 2 ^ e' := by
          exact mul_le_mul (by exact_mod_cast hfull) hstep (by positivity) (by positivity)
  · exact mul_lt_mul_of_pos_right (by exact_mod_cast h) hpos

private theorem dyadic_compare {k k' m m' : ℕ} {e e' : ℤ} (he : e = k - 1074) (he' : e' = k' - 1074)
    (hm : m < 2 ^ 53) (hm' : m' < 2 ^ 53) (hk : k = 0 ∨ 2 ^ 52 ≤ m) (hk' : k' = 0 ∨ 2 ^ 52 ≤ m') :
    (compare e e').then (compare m m') = compare ((m : ℚ) * 2 ^ e) (m' * 2 ^ e') := by
  rcases lt_trichotomy e e' with h | rfl | h
  · rw [compare_lt_iff_lt.2 h, compare_lt_iff_lt.2 (dyadic_lt he he' hm hk' (.inl h))]
    rfl
  · rw [compare_eq_iff_eq.2 rfl]
    rcases lt_trichotomy m m' with h | rfl | h
    · rw [compare_lt_iff_lt.2 h, compare_lt_iff_lt.2 (dyadic_lt he he' hm hk' (.inr ⟨rfl, h⟩))]
      rfl
    · rw [compare_eq_iff_eq.2 rfl, compare_eq_iff_eq.2 rfl]
      rfl
    · rw [compare_gt_iff_gt.2 h, compare_gt_iff_gt.2 (dyadic_lt he' he hm' hk (.inr ⟨rfl, h⟩))]
      rfl
  · rw [compare_gt_iff_gt.2 h, compare_gt_iff_gt.2 (dyadic_lt he' he hm' hk (.inl h))]
    rfl

private theorem compare_neg_neg (a b : ℚ) : compare (-a) (-b) = (compare a b).swap := by
  rcases lt_trichotomy a b with h | rfl | h
  · rw [compare_lt_iff_lt.2 h, compare_gt_iff_gt.2 (neg_lt_neg h)]
    rfl
  · rw [compare_eq_iff_eq.2 rfl, compare_eq_iff_eq.2 rfl]
    rfl
  · rw [compare_gt_iff_gt.2 h, compare_lt_iff_lt.2 (neg_lt_neg h)]
    rfl

theorem compare_eq {x y : Float} {p q : ℚ} (hp : value? x = some p) (hq : value? y = some q) :
    x.toModel.unpack.compare y.toModel.unpack = some (compare p q) := by
  have hx := unpacks x
  have hy := unpacks y
  unfold value? at hp hq
  generalize x.toModel.unpack = u at *
  generalize y.toModel.unpack = v at *
  cases hx with
  | notANumber => exact absurd hp nofun
  | infinity => exact absurd hp nofun
  | zero =>
    obtain rfl := Option.some.inj hp
    cases hy with
    | notANumber => exact absurd hq nofun
    | infinity => exact absurd hq nofun
    | zero =>
      obtain rfl := Option.some.inj hq
      rfl
    | @finite m k e pos he =>
      obtain rfl := Option.some.inj hq
      have hm : (0 : ℚ) < m * 2 ^ e := by positivity
      cases hs : sign y with
      | positive =>
        simp only [UnpackedFloat.compare, UnpackedFloat.Sign.apply, Int.cast_natCast]
        rw [compare_lt_iff_lt.2 hm]
      | negative =>
        simp only [UnpackedFloat.compare, UnpackedFloat.Sign.apply, Int.cast_neg, Int.cast_natCast,
          neg_mul]
        rw [compare_gt_iff_gt.2 (neg_lt_zero.2 hm)]
  | @finite m k e pos he hb hm hk =>
    obtain rfl := Option.some.inj hp
    have hpos : (0 : ℚ) < m * 2 ^ e := by positivity
    cases hy with
    | notANumber => exact absurd hq nofun
    | infinity => exact absurd hq nofun
    | zero =>
      obtain rfl := Option.some.inj hq
      cases hs : sign x with
      | positive =>
        simp only [UnpackedFloat.compare, UnpackedFloat.Sign.apply, Int.cast_natCast]
        rw [compare_gt_iff_gt.2 hpos]
      | negative =>
        simp only [UnpackedFloat.compare, UnpackedFloat.Sign.apply, Int.cast_neg, Int.cast_natCast,
          neg_mul]
        rw [compare_lt_iff_lt.2 (neg_lt_zero.2 hpos)]
    | @finite m' k' e' pos' he' hb' hm' hk' =>
      obtain rfl := Option.some.inj hq
      have hpos' : (0 : ℚ) < m' * 2 ^ e' := by positivity
      have hdyadic := dyadic_compare he he' hm hm' hk hk'
      cases hs : sign x <;> cases hs' : sign y <;>
        simp only [UnpackedFloat.compare, UnpackedFloat.Sign.apply, Int.cast_neg, Int.cast_natCast,
          neg_mul, hdyadic, compare_neg_neg]
      case positive.negative => rw [compare_gt_iff_gt.2 ((neg_lt_zero.2 hpos').trans hpos)]
      case negative.positive => rw [compare_lt_iff_lt.2 ((neg_lt_zero.2 hpos).trans hpos')]

section Order
variable {x y : Float} {p q : ℚ}

theorem lt_iff_compare : x < y ↔ x.toModel.unpack.compare y.toModel.unpack = some .lt :=
  decide_eq_true_iff.trans beq_iff_eq

theorem le_iff_compare :
    x ≤ y ↔ (x.toModel.unpack.compare y.toModel.unpack).any (·.isLE) = true :=
  decide_eq_true_iff

theorem lt_iff (hp : value? x = some p) (hq : value? y = some q) : x < y ↔ p < q := by
  rw [lt_iff_compare, compare_eq hp hq, Option.some.injEq, compare_lt_iff_lt]

theorem le_iff (hp : value? x = some p) (hq : value? y = some q) : x ≤ y ↔ p ≤ q := by
  rw [le_iff_compare, compare_eq hp hq, Option.any_some, Ordering.isLE_iff_ne_gt]
  exact compare_le_iff_le

end Order

private theorem ofFloat_eq (x : Float) : Binary.ofFloat x =
    if unsigned x / 2 ^ 52 = 2047 then
      if unsigned x % 2 ^ 52 = 0 then .infinite (sign x == .negative) else .nan
    else if unsigned x / 2 ^ 52 = 0 then
      .finite (sign x == .negative) (unsigned x % 2 ^ 52) (-1074)
    else .finite (sign x == .negative) (unsigned x % 2 ^ 52 + 2 ^ 52)
      ((unsigned x / 2 ^ 52 : ℕ) - 1075 : ℤ) := by
  have hlt : x.toBits.toNat < 2 ^ 64 := x.toBits.toNat_lt
  have hfield : x.toBits.toNat / Nat.pow 2 52 % Nat.pow 2 11 = unsigned x / 2 ^ 52 := by
    change x.toBits.toNat / 2 ^ 52 % 2 ^ 11 = x.toBits.toNat % 2 ^ 63 / 2 ^ 52
    omega
  have hfraction : x.toBits.toNat % Nat.pow 2 52 = unsigned x % 2 ^ 52 := by
    change x.toBits.toNat % 2 ^ 52 = x.toBits.toNat % 2 ^ 63 % 2 ^ 52
    omega
  have hsign : decide (Nat.pow 2 63 ≤ x.toBits.toNat) = (sign x == .negative) := by
    change decide (2 ^ 63 ≤ x.toBits.toNat) = _
    unfold sign
    split
    · rw [decide_eq_false (by omega)]
      rfl
    · rw [decide_eq_true (by omega)]
      rfl
  simp only [Binary.ofFloat, hfield, hfraction, hsign]
  rfl

private theorem exists_ofFloat {x : Float} {q : ℚ} (h : value? x = some q) :
    ∃ m e, Binary.ofFloat x = .finite (sign x == .negative) m e ∧
      q = ((sign x).apply m : ℤ) * 2 ^ e := by
  have hx := unpacks x
  unfold value? at h
  generalize x.toModel.unpack = u at *
  rw [ofFloat_eq]
  cases hx with
  | notANumber => exact absurd h nofun
  | infinity => exact absurd h nofun
  | zero least =>
    obtain rfl := Option.some.inj h
    refine ⟨0, -1074, ?_, ?_⟩
    · rw [least]
      rfl
    · cases sign x <;> simp [UnpackedFloat.Sign.apply]
  | @finite m k e pos he hb hm hk hlt =>
    obtain rfl := Option.some.inj h
    refine ⟨m, e, ?_, rfl⟩
    rw [if_neg (by omega)]
    by_cases hfield : unsigned x / 2 ^ 52 = 0
    · rw [if_pos hfield]
      congr 1 <;> omega
    · rw [if_neg hfield]
      congr 1 <;> omega

/-- A quotient rounded to the nearest whole number, halves upwards. -/
private theorem floor_quotient (num den : ℕ) (hden : 0 < den) :
    ⌊(num : ℚ) / den + 1 / 2⌋₊ = (2 * num + den) / (2 * den) := by
  have hpos : (0 : ℚ) < den := by exact_mod_cast hden
  have hsum : (num : ℚ) / den + 1 / 2 = ((2 * num + den : ℕ) : ℚ) / (2 * den : ℕ) := by
    push_cast
    field_simp
  rw [hsum, Nat.floor_div_eq_div]

private theorem ratio_eq (m : ℕ) (e : ℤ) :
    (m : ℚ) * 2 ^ e = (Binary.ratio m e 0).1 / (Binary.ratio m e 0).2 := by
  have hnum : (Binary.ratio m e 0).1 = m * 2 ^ e.toNat := Nat.mul_one _
  have hden : (Binary.ratio m e 0).2 = 2 ^ (-e).toNat := Nat.mul_one _
  have hsplit : e = e.toNat - (-e).toNat := by omega
  rw [hnum, hden]
  conv_lhs => rw [hsplit, zpow_sub₀ two_ne_zero, zpow_natCast, zpow_natCast]
  push_cast
  ring

/-- The whole number nearest to a finite double is the one nearest to the number it stands for. -/
theorem nearestWord_eq (bits : ℕ) {x : Float} {q : ℚ} (h : value? x = some q) :
    (Binary.ofFloat x).nearestWord bits = min ⌊q + 1 / 2⌋₊ (2 ^ bits - 1) := by
  obtain ⟨m, e, hx, rfl⟩ := exists_ofFloat h
  rw [hx]
  cases sign x with
  | negative =>
    have hle : ((UnpackedFloat.Sign.negative.apply (m : ℤ) : ℤ) : ℚ) * 2 ^ e ≤ 0 := by
      simp only [UnpackedFloat.Sign.apply, Int.cast_neg, Int.cast_natCast, neg_mul]
      exact neg_nonpos.2 (by positivity)
    have hfloor : ⌊((UnpackedFloat.Sign.negative.apply (m : ℤ) : ℤ) : ℚ) * 2 ^ e + 1 / 2⌋₊ = 0 :=
      Nat.floor_eq_zero.2 (by linarith)
    rw [hfloor, Nat.zero_min]
    rfl
  | positive =>
    have hden : 0 < (Binary.ratio m e 0).2 := by
      change 0 < 2 ^ (-e).toNat * 1
      positivity
    have hvalue : ((UnpackedFloat.Sign.positive.apply (m : ℤ) : ℤ) : ℚ) * 2 ^ e =
        (Binary.ratio m e 0).1 / (Binary.ratio m e 0).2 := ratio_eq m e
    rw [hvalue, floor_quotient _ _ hden]
    rfl

end MailMarkup.Decimal
