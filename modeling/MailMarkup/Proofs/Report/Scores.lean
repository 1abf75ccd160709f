import MailMarkup.Proofs.Decimal.Special
import MailMarkup.Report
import MailMarkup.Settings.Basic

/-!
# What scores tell

With penalties read as exact numbers, more findings and graver findings cost more, and neither the
ceiling nor rounding turns that around (`score_falls`). Sums of doubles are rounded themselves, so
of those it is said only what a document without findings scores (`score_blank`): a hundred, unless
a penalty is infinite. Both hold for all settings that are accepted.
-/
namespace MailMarkup

/-- Exact numbers. They are rounded to words of 32 bits, as doubles are. -/
instance : Amount ℚ where
  ofNat n := n
  add := (· + ·)
  sub := (· - ·)
  mul := (· * ·)
  min := min
  max := max
  lt a b := a < b
  le a b := a ≤ b
  round a := min ⌊a + 1 / 2⌋₊ (2 ^ 32 - 1)

namespace Scoring

/-- The numbers that finite penalties stand for. -/
def rational? (s : Scoring Float) : Option (Scoring ℚ) := do
  return {
    error := ← Decimal.value? s.error
    warning := ← Decimal.value? s.warning
    info := ← Decimal.value? s.info
    ceiling := ← Decimal.value? s.ceiling }

/-- Graver findings cost more, none costs less than nothing, and some penalty is allowed. -/
structure Graded (q : Scoring ℚ) : Prop where
  warning_lt_error : q.warning < q.error
  info_lt_warning : q.info < q.warning
  info_nonneg : 0 ≤ q.info
  ceiling_pos : 0 < q.ceiling

private theorem of_guard {c : Prop} [Decidable c] {a : String} {rest : Option String}
    (h : (if c then some a else rest) = none) : ¬ c ∧ rest = none := by
  by_cases hc : c
  · exact absurd ((if_pos hc).symm.trans h) nofun
  · exact ⟨hc, (if_neg hc).symm.trans h⟩

theorem of_accepted {s : Settings} (h : s.fault? = none) :
    s.scoring.isOrdered = true ∧ s.scoring.hasCeiling = true := by
  obtain ⟨-, h⟩ := of_guard h
  obtain ⟨-, h⟩ := of_guard h
  obtain ⟨ordered, h⟩ := of_guard h
  obtain ⟨ceiling, -⟩ := of_guard h
  rw [Bool.not_eq_true', Bool.not_eq_false] at ordered ceiling
  exact ⟨ordered, ceiling⟩

private theorem graded_of_rational {s : Scoring Float} {q : Scoring ℚ} (hq : s.rational? = some q)
    (ordered : s.isOrdered = true) (ceiling : s.hasCeiling = true) : q.Graded := by
  simp only [rational?, Option.bind_eq_bind, Option.bind_eq_some_iff, Option.pure_def,
    Option.some.injEq] at hq
  obtain ⟨error, herror, warning, hwarning, info, hinfo, most, hmost, rfl⟩ := hq
  have hzero : Decimal.value? (Float.ofNat 0) = some 0 := rfl
  simp only [isOrdered, hasCeiling, Amount.lt, Amount.le, Amount.ofNat, Bool.and_eq_true,
    Bool.not_eq_true', decide_eq_true_iff, decide_eq_false_iff_not] at ordered ceiling
  rw [Decimal.lt_iff hwarning herror, Decimal.lt_iff hinfo hwarning,
    Decimal.le_iff hzero hinfo] at ordered
  rw [Decimal.le_iff hmost hzero, not_le] at ceiling
  exact ⟨ordered.1.1, ordered.1.2, ordered.2, ceiling⟩

/-- What the findings cost before the ceiling. -/
def total (q : Scoring ℚ) (errors warnings infos : ℕ) : ℚ :=
  errors * q.error + warnings * q.warning + infos * q.info

theorem score_eq (q : Scoring ℚ) (errors warnings infos : ℕ) : q.score errors warnings infos =
    min ⌊max (100 - min (q.total errors warnings infos) q.ceiling) 0 + 1 / 2⌋₊ (2 ^ 32 - 1) := rfl

/-- The score falls when the cost rises, as the ceiling, the floor and rounding keep the order. -/
theorem score_le_of_total_le {q : Scoring ℚ} {errors warnings infos errors' warnings' infos' : ℕ}
    (h : q.total errors warnings infos ≤ q.total errors' warnings' infos') :
    q.score errors' warnings' infos' ≤ q.score errors warnings infos := by
  rw [score_eq, score_eq]
  gcongr

namespace Graded
variable {q : Scoring ℚ} (h : q.Graded) (errors warnings infos : ℕ)
include h

theorem warning_nonneg : 0 ≤ q.warning := h.info_nonneg.trans h.info_lt_warning.le

theorem error_nonneg : 0 ≤ q.error := h.warning_nonneg.trans h.warning_lt_error.le

private theorem total_nonneg : 0 ≤ q.total errors warnings infos := by
  have herror := h.error_nonneg
  have hwarning := h.warning_nonneg
  have hinfo := h.info_nonneg
  unfold total
  positivity

private theorem score_le_hundred : q.score errors warnings infos ≤ 100 := by
  have hcost : 0 ≤ min (q.total errors warnings infos) q.ceiling :=
    le_min (h.total_nonneg errors warnings infos) h.ceiling_pos.le
  have hrest : max (100 - min (q.total errors warnings infos) q.ceiling) 0 ≤ 100 :=
    max_le (sub_le_self 100 hcost) (by norm_num)
  have hfloor : ⌊max (100 - min (q.total errors warnings infos) q.ceiling) 0 + 1 / 2⌋₊ < 101 :=
    Nat.floor_lt' (by norm_num) |>.2 (by push_cast; linarith)
  rw [score_eq]
  omega

theorem total_mono {errors warnings infos errors' warnings' infos' : ℕ} (he : errors ≤ errors')
    (hw : warnings ≤ warnings') (hi : infos ≤ infos') :
    q.total errors warnings infos ≤ q.total errors' warnings' infos' := by
  have herror := h.error_nonneg
  have hwarning := h.warning_nonneg
  have hinfo := h.info_nonneg
  unfold total
  gcongr

private theorem total_info_le_warning :
    q.total errors warnings (infos + 1) ≤ q.total errors (warnings + 1) infos := by
  have hlt := h.info_lt_warning
  unfold total
  push_cast
  linarith

private theorem total_warning_le_error :
    q.total errors (warnings + 1) infos ≤ q.total (errors + 1) warnings infos := by
  have hlt := h.warning_lt_error
  unfold total
  push_cast
  linarith

end Graded
end Scoring

namespace Report

theorem length_withSeverity_append (fs gs : List Finding) (v : Severity) :
    (withSeverity fs v).length ≤ (withSeverity (fs ++ gs) v).length := by
  simp only [withSeverity, List.filter_append, List.length_append]
  exact Nat.le_add_right _ _

end Report

namespace Scoring

/-- For all settings that are accepted and have finite penalties, read as exact numbers: a score
lies between 0 and 100, does not rise when there are more findings, nor when an info is replaced by
a warning or a warning by an error. So findings that are added never raise the score of a report. -/
theorem score_falls (s : Settings) (accepted : s.fault? = none) {q : Scoring ℚ}
    (rational : s.scoring.rational? = some q) :
    (∀ errors warnings infos, q.score errors warnings infos ≤ 100) ∧
      (∀ errors warnings infos errors' warnings' infos',
        errors ≤ errors' → warnings ≤ warnings' → infos ≤ infos' →
          q.score errors' warnings' infos' ≤ q.score errors warnings infos) ∧
      (∀ errors warnings infos,
        q.score errors (warnings + 1) infos ≤ q.score errors warnings (infos + 1)) ∧
      (∀ errors warnings infos,
        q.score (errors + 1) warnings infos ≤ q.score errors (warnings + 1) infos) ∧
      ∀ (fs gs : List Finding) (strict : Bool),
        (Report.ofFindings (fs ++ gs) q strict).score ≤ (Report.ofFindings fs q strict).score := by
  obtain ⟨ordered, ceiling⟩ := of_accepted accepted
  have graded := graded_of_rational rational ordered ceiling
  refine ⟨graded.score_le_hundred, ?_, ?_, ?_, ?_⟩
  · intro errors warnings infos errors' warnings' infos' he hw hi
    exact score_le_of_total_le (graded.total_mono he hw hi)
  · intro errors warnings infos
    exact score_le_of_total_le (graded.total_info_le_warning errors warnings infos)
  · intro errors warnings infos
    exact score_le_of_total_le (graded.total_warning_le_error errors warnings infos)
  · intro fs gs strict
    exact score_le_of_total_le (graded.total_mono (Report.length_withSeverity_append fs gs .error)
      (Report.length_withSeverity_append fs gs .warning)
      (Report.length_withSeverity_append fs gs .info))

/-- Penalties of less than a whole point: a half is rounded upwards, and the ceiling is met. -/
theorem score_falls_fractions :
    let s : Settings :=
      { scoring := { error := 2.5, warning := 1.25, info := 0.25, ceiling := 30 } }
    let q : Scoring ℚ := { error := 5 / 2, warning := 5 / 4, info := 1 / 4, ceiling := 30 }
    s.fault? = none ∧ s.scoring.rational? = some q ∧ q.score 1 0 0 = 98 ∧ q.score 0 2 0 = 98 ∧
      q.score 40 0 0 = 70 ∧ q.score 0 1 3 ≤ q.score 0 0 4 := by
  intro s q
  have accepted : s.fault? = none := by decide
  have herror : Decimal.value? 2.5 = some (5 / 2) := by decide +kernel
  have hwarning : Decimal.value? 1.25 = some (5 / 4) := by decide +kernel
  have hinfo : Decimal.value? 0.25 = some (1 / 4) := by decide +kernel
  have hceiling : Decimal.value? 30 = some 30 := by decide +kernel
  have rational : s.scoring.rational? = some q := by
    simp only [s, q, rational?, herror, hwarning, hinfo, hceiling]
    rfl
  obtain ⟨-, -, trade, -⟩ := score_falls s accepted rational
  exact ⟨accepted, rational, by decide +kernel, by decide +kernel, by decide +kernel, trade 0 0 3⟩

section Blank
variable {s : Scoring Float}

/-- Accepted penalties for warnings and infos are finite, as each lies between zero and another. -/
theorem isFinite_of_ordered (ordered : s.isOrdered = true) :
    s.warning.isFinite = true ∧ s.info.isFinite = true := by
  simp only [isOrdered, Amount.lt, Amount.le, Amount.ofNat, Bool.and_eq_true,
    decide_eq_true_iff] at ordered
  obtain ⟨⟨hwarning, hinfo⟩, hzero⟩ := ordered
  have info : s.info.isFinite = true := Decimal.isFinite_of_le_of_lt rfl hzero hinfo
  exact ⟨Decimal.isFinite_of_le_of_lt info (Decimal.le_of_lt hinfo) hwarning, info⟩

private theorem value_penalty_blank (ordered : s.isOrdered = true) (ceiling : s.hasCeiling = true)
    (finite : s.error.isFinite = true) : Decimal.value? (s.penalty 0 0 0) = some 0 := by
  obtain ⟨warning, info⟩ := isFinite_of_ordered ordered
  have htotal : Decimal.value? (Float.ofNat 0 * s.error + Float.ofNat 0 * s.warning +
      Float.ofNat 0 * s.info) = some 0 :=
    Decimal.value_add_of_zero (Decimal.value_add_of_zero (Decimal.value_zero_mul finite)
      (Decimal.value_zero_mul warning)) (Decimal.value_zero_mul info)
  simp only [hasCeiling, Amount.le, Amount.ofNat, Bool.not_eq_true', decide_eq_false_iff_not]
    at ceiling
  simp only [penalty, Amount.min, Amount.add, Amount.mul, Amount.ofNat]
  rw [Decimal.isNaN_of_value htotal, if_neg Bool.false_ne_true]
  split_ifs with hnan hlt
  · exact htotal
  · exact htotal
  · exact absurd (Decimal.lt_of_not_le_zero htotal (Bool.eq_false_iff.2 hnan) ceiling) hlt

/-- Without findings, an infinite penalty adds up to no number, which leaves the ceiling. -/
theorem penalty_blank (infinite : s.error.isFinite = false) : s.penalty 0 0 0 = s.ceiling := by
  have htotal : (Float.ofNat 0 * s.error + Float.ofNat 0 * s.warning +
      Float.ofNat 0 * s.info).isNaN = true :=
    Decimal.isNaN_add (Decimal.isNaN_add (Decimal.isNaN_zero_mul infinite))
  exact if_pos htotal

private theorem round_hundred_sub {x : Float} (h : Decimal.value? x = some 0) :
    Amount.round (Amount.max (Amount.sub (Amount.ofNat 100) x) (Amount.ofNat 0)) = 100 := by
  have hrest := Decimal.value_hundred_sub h
  have hzero : Decimal.value? (Float.ofNat 0) = some 0 := rfl
  have hnot : ¬ Float.ofNat 100 - x < Float.ofNat 0 := by
    rw [Decimal.lt_iff hrest hzero]
    norm_num
  simp only [Amount.round, Amount.max, Amount.sub, Amount.ofNat]
  rw [Decimal.isNaN_of_value hrest, Decimal.isNaN_of_value hzero, if_neg Bool.false_ne_true,
    if_neg Bool.false_ne_true, if_neg hnot, Decimal.nearestWord_eq 32 hrest]
  norm_num

end Blank

/-- For all settings that are accepted, read as doubles: a document without findings has score 100
when the penalty for an error is finite. When it is infinite, zero errors cost what is no number,
and the score is what the ceiling leaves. -/
theorem score_blank (s : Settings) (accepted : s.fault? = none) (strict : Bool) :
    (s.scoring.error.isFinite = true → (Report.ofFindings [] s.scoring strict).score = 100) ∧
      (s.scoring.error.isFinite = false → (Report.ofFindings [] s.scoring strict).score =
        Amount.round (Amount.max (100 - s.scoring.ceiling) 0)) := by
  obtain ⟨ordered, ceiling⟩ := of_accepted accepted
  constructor
  · intro finite
    exact round_hundred_sub (value_penalty_blank ordered ceiling finite)
  · intro infinite
    change s.scoring.score 0 0 0 = _
    rw [score, penalty_blank infinite]
    rfl

/-- An infinite penalty for errors takes all of the score from a document without any. -/
theorem score_blank_infinite :
    let s : Settings :=
      { scoring := { error := 1.0 / 0.0, warning := 5, info := 1, ceiling := 100 } }
    s.fault? = none ∧ (Report.ofFindings [] s.scoring false).score = 0 := by
  intro s
  have accepted : s.fault? = none := by decide
  refine ⟨accepted, ?_⟩
  have hrest : Decimal.value? (Amount.max ((100 : Float) - 100) 0) = some 0 := rfl
  rw [(score_blank s accepted false).2 (by decide)]
  exact (Decimal.nearestWord_eq 32 hrest).trans (by norm_num)

end Scoring
end MailMarkup
