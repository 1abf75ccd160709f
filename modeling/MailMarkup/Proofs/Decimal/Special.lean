import MailMarkup.Proofs.Decimal.Exact

/-!
# Doubles that are zero, infinite or no number

Zero times a double is zero when the double is finite and no number when it is not, and what is no
number stays so in a sum. A double that lies between two others is finite.
-/
namespace MailMarkup.Decimal
open Float.Model

variable {x y z : Float}

theorem isNaN_iff : x.isNaN = true ↔ x.toModel.unpack = .notANumber := by
  change x.toModel.unpack.isNaN = true ↔ _
  cases x.toModel.unpack <;> simp [UnpackedFloat.isNaN]

theorem isNaN_of_value {q : ℚ} (h : value? x = some q) : x.isNaN = false := by
  rw [← Bool.not_eq_true, isNaN_iff]
  intro hx
  simp [value?, hx] at h

theorem value_eq_zero_iff : value? x = some 0 ↔ ∃ s, x.toModel.unpack = .zero s := by
  unfold value?
  cases x.toModel.unpack with
  | finite s m e pos =>
    have hpow : (2 : ℚ) ^ e ≠ 0 := by positivity
    cases s <;> simp [UnpackedFloat.Sign.apply, pos.ne', hpow]
  | zero s => simp
  | infinity s => simp
  | notANumber => simp

/-! ### Products, sums and differences -/

private theorem value_pack_zero (s : UnpackedFloat.Sign) :
    value? (.ofModel (pack (.zero s))) = some 0 := by
  cases s <;> rfl

private theorem isNaN_pack_notANumber : Float.isNaN (.ofModel (pack .notANumber)) = true := rfl

private theorem mul_eq (x y : Float) : x * y =
    .ofModel (pack (.mul .binary64 x.toModel.unpack y.toModel.unpack)) := rfl

private theorem unpack_zero : (Float.ofNat 0).toModel.unpack = .zero .positive := rfl

private theorem add_eq (x y : Float) : x + y =
    .ofModel (pack (.add .binary64 x.toModel.unpack y.toModel.unpack)) := rfl

private theorem sub_eq (x y : Float) : x - y =
    .ofModel (pack (.sub .binary64 x.toModel.unpack y.toModel.unpack)) := rfl

/-- Zero times what is finite is one of the zeros. -/
theorem value_zero_mul (h : x.isFinite = true) : value? (Float.ofNat 0 * x) = some 0 := by
  change x.toModel.unpack.isFinite = true at h
  rw [mul_eq, unpack_zero]
  cases hx : x.toModel.unpack with
  | finite s =>
    simp only [UnpackedFloat.mul]
    exact value_pack_zero _
  | zero s =>
    simp only [UnpackedFloat.mul]
    exact value_pack_zero _
  | infinity => exact absurd (hx ▸ h) nofun
  | notANumber => exact absurd (hx ▸ h) nofun

/-- Zero times what is not finite is no number. -/
theorem isNaN_zero_mul (h : x.isFinite = false) : (Float.ofNat 0 * x).isNaN = true := by
  change x.toModel.unpack.isFinite = false at h
  rw [mul_eq, unpack_zero]
  cases hx : x.toModel.unpack with
  | finite => exact absurd (hx ▸ h) nofun
  | zero => exact absurd (hx ▸ h) nofun
  | infinity => exact isNaN_pack_notANumber
  | notANumber => exact isNaN_pack_notANumber

theorem value_add_of_zero (hx : value? x = some 0) (hy : value? y = some 0) :
    value? (x + y) = some 0 := by
  obtain ⟨s, hs⟩ := value_eq_zero_iff.1 hx
  obtain ⟨t, ht⟩ := value_eq_zero_iff.1 hy
  rw [add_eq, hs, ht]
  cases s <;> cases t <;> rfl

theorem isNaN_add (h : x.isNaN = true) : (x + y).isNaN = true := by
  rw [add_eq, isNaN_iff.1 h]
  exact isNaN_pack_notANumber

/-- A hundred stays a hundred when a zero is taken away. -/
theorem value_hundred_sub (h : value? x = some 0) : value? (Float.ofNat 100 - x) = some 100 := by
  obtain ⟨s, hs⟩ := value_eq_zero_iff.1 h
  have hunpack : (pack (.sub .binary64 (Float.ofNat 100).toModel.unpack (.zero s))).unpack =
      .finite .positive 7036874417766400 (-46) (by decide) := by
    cases s <;> rfl
  rw [sub_eq, hs, value?, hunpack]
  norm_num [UnpackedFloat.Sign.apply]

/-! ### Comparisons -/

theorem le_of_lt (h : x < y) : x ≤ y := by
  rw [le_iff_compare, lt_iff_compare.1 h]
  rfl

/-- What lies between a finite double and another one is finite. -/
theorem isFinite_of_le_of_lt (hx : x.isFinite = true) (hxy : x ≤ y) (hyz : y < z) :
    y.isFinite = true := by
  have hle := le_iff_compare.1 hxy
  have hlt := lt_iff_compare.1 hyz
  change x.toModel.unpack.isFinite = true at hx
  change y.toModel.unpack.isFinite = true
  generalize x.toModel.unpack = u at *
  generalize y.toModel.unpack = v at *
  generalize z.toModel.unpack = w at *
  cases v with
  | finite => rfl
  | zero => rfl
  | notANumber => simp [UnpackedFloat.compare] at hlt
  | infinity s =>
    cases s with
    | negative => cases u <;> simp [UnpackedFloat.compare, UnpackedFloat.isFinite] at hx hle
    | positive =>
      cases w with
      | infinity t => cases t <;> simp [UnpackedFloat.compare] at hlt
      | _ => simp [UnpackedFloat.compare] at hlt

/-- Of a double that is a number and not at most zero, any zero is below. -/
theorem lt_of_not_le_zero (hx : value? x = some 0) (hy : y.isNaN = false)
    (h : ¬ y ≤ Float.ofNat 0) : x < y := by
  obtain ⟨s, hs⟩ := value_eq_zero_iff.1 hx
  rw [le_iff_compare, unpack_zero] at h
  rw [← Bool.not_eq_true, isNaN_iff] at hy
  rw [lt_iff_compare, hs]
  generalize y.toModel.unpack = v at *
  cases v with
  | notANumber => exact absurd rfl hy
  | zero => exact absurd rfl h
  | finite t => cases t with
    | positive => rfl
    | negative => exact absurd rfl h
  | infinity t => cases t with
    | positive => rfl
    | negative => exact absurd rfl h

end MailMarkup.Decimal
