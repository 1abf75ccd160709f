import MailMarkup.Text.Basic

/-!
# Searching in texts

`cut?` finds the first occurrence of a text in another, and finds one whenever there is one.
-/
namespace MailMarkup.Text

theorem after?_eq_some_iff {pre t rest : Text} : after? pre t = some rest ↔ t = pre ++ rest := by
  induction pre generalizing t with
  | nil => simp [after?]
  | cons p pre ih =>
    cases t with
    | nil => simp [after?]
    | cons c t =>
      simp only [after?, beq_iff_eq, List.cons_append, List.cons.injEq]
      split
      · rename_i h; simp [h, ih]
      · rename_i h; simp [Ne.symm h]

private theorem after?_eq_none_iff {pre t : Text} : after? pre t = none ↔ ¬ pre <+: t := by
  constructor
  · rintro h ⟨rest, hr⟩
    simp [after?_eq_some_iff.2 hr.symm] at h
  · intro h
    cases ha : after? pre t with
    | none => rfl
    | some rest => exact absurd ⟨rest, (after?_eq_some_iff.1 ha).symm⟩ h

private theorem cutAt_eq (needle t seen : Text) :
    cutAt needle t seen = (cutAt needle t []).map fun r => (seen.reverse ++ r.1, r.2) := by
  induction t generalizing seen with
  | nil => simp only [cutAt]; split <;> simp
  | cons c t ih =>
    simp only [cutAt]
    split
    · simp
    · rw [ih (c :: seen), ih [c]]
      simp [Function.comp_def]

theorem cut?_nil (needle : Text) :
    cut? needle [] = if needle.isEmpty then some ([], []) else none := rfl

theorem cut?_cons (needle : Text) (c : Char) (t : Text) :
    cut? needle (c :: t) =
      match after? needle (c :: t) with
      | some rest => some ([], rest)
      | none => (cut? needle t).map fun r => (c :: r.1, r.2) := by
  simp only [cut?, cutAt]
  cases after? needle (c :: t) with
  | some rest => rfl
  | none => exact cutAt_eq needle t [c]

theorem cut?_eq_none_iff {needle t : Text} : cut? needle t = none ↔ ¬ needle <:+: t := by
  induction t with
  | nil => simp [cut?_nil, List.infix_nil]
  | cons c t ih =>
    rw [cut?_cons, List.infix_cons_iff, not_or, ← after?_eq_none_iff, ← ih]
    split <;> rename_i h <;> simp [h]

/-- A text is split at an occurrence, and none starts earlier. -/
def IsFirst (needle t pre post : Text) : Prop :=
  t = pre ++ (needle ++ post) ∧ ∀ v w, t = v ++ (needle ++ w) → pre.length ≤ v.length

/-- Where a text does not start with one, the first occurrence is that of what follows. -/
theorem isFirst_cons_iff {needle t pre post : Text} {c : Char}
    (hstart : ∀ w, c :: t ≠ needle ++ w) :
    IsFirst needle (c :: t) pre post ↔ ∃ u, pre = c :: u ∧ IsFirst needle t u post := by
  constructor
  · rintro ⟨hsplit, hmin⟩
    cases pre with
    | nil => exact absurd hsplit (hstart post)
    | cons d u =>
      obtain ⟨rfl, hu⟩ := List.cons.inj hsplit
      refine ⟨u, rfl, hu, fun v w hv => ?_⟩
      exact Nat.le_of_succ_le_succ (hmin (c :: v) w (by simp [hv]))
  · rintro ⟨u, rfl, hsplit, hmin⟩
    refine ⟨by simp [hsplit], fun v w hv => ?_⟩
    cases v with
    | nil => exact absurd hv (hstart w)
    | cons d v =>
      obtain ⟨-, hv⟩ := List.cons.inj hv
      exact Nat.succ_le_succ (hmin v w hv)

/-- A text is cut at the first occurrence. -/
theorem cut?_eq_some_iff {needle t pre post : Text} :
    cut? needle t = some (pre, post) ↔ IsFirst needle t pre post := by
  induction t generalizing pre with
  | nil =>
    rw [cut?_nil]
    split
    · rename_i h
      obtain rfl := List.isEmpty_iff.1 h
      constructor
      · rintro ⟨⟩
        exact ⟨by simp, by simp⟩
      · rintro ⟨h, -⟩
        obtain ⟨rfl, rfl⟩ : pre = [] ∧ post = [] := by simpa using h.symm
        rfl
    · rename_i h
      refine iff_of_false nofun fun ⟨h', _⟩ => ?_
      obtain ⟨-, h'⟩ := List.append_eq_nil_iff.1 h'.symm
      exact absurd (by simpa using (List.append_eq_nil_iff.1 h').1) h
  | cons c t ih =>
    rw [cut?_cons]
    split
    · rename_i rest h
      rw [after?_eq_some_iff] at h
      rw [h]
      constructor
      · rintro ⟨⟩
        exact ⟨by simp, by simp⟩
      · rintro ⟨he, hmin⟩
        obtain rfl : pre = [] := List.eq_nil_of_length_eq_zero
          (Nat.le_zero.1 (by simpa using hmin [] rest rfl))
        simpa using he
    · rename_i h
      have hstart : ∀ w, c :: t ≠ needle ++ w := fun w hw => by
        simp [after?_eq_some_iff.2 hw] at h
      rw [Option.map_eq_some_iff, isFirst_cons_iff hstart]
      constructor
      · rintro ⟨⟨u, w⟩, hu, he⟩
        obtain ⟨rfl, rfl⟩ := Prod.mk.inj he
        exact ⟨u, rfl, ih.1 hu⟩
      · rintro ⟨u, rfl, hu⟩
        exact ⟨(u, post), ih.2 hu, rfl⟩

/-- What is before the first occurrence has none. -/
theorem not_infix_of_cut? {needle t pre post : Text} (hne : needle ≠ [])
    (h : cut? needle t = some (pre, post)) : ¬ needle <:+: pre := by
  obtain ⟨rfl, hmin⟩ := cut?_eq_some_iff.1 h
  rintro ⟨v, w, rfl⟩
  have hle := hmin v (w ++ (needle ++ post)) (by simp)
  have hpos := List.length_pos_iff.2 hne
  simp only [List.length_append] at hle
  omega

/-- No end of the text is also a start of it, but for the whole. -/
def Unbordered (needle : Text) : Prop :=
  ∀ b, b ≠ [] → b <:+ needle → b <+: needle → b = needle

/-- An occurrence is the first one if the text before it has none and it does not overlap itself. -/
theorem cut?_append {needle t : Text} (hu : Unbordered needle) (h : ¬ needle <:+: t) (post : Text) :
    cut? needle (t ++ (needle ++ post)) = some (t, post) := by
  rw [cut?_eq_some_iff]
  refine ⟨rfl, ?_⟩
  intro v w hv
  rcases List.append_eq_append_iff.1 hv with ⟨a, rfl, -⟩ | ⟨a, rfl, ha⟩
  · simp
  · rcases List.append_eq_append_iff.1 ha with ⟨b, rfl, -⟩ | ⟨b, hb, hw⟩
    · exact absurd ⟨v, b, by simp⟩ h
    · have hpre : b <+: needle := by
        refine List.prefix_of_prefix_length_le ⟨w, hw.symm⟩ ⟨post, rfl⟩ ?_
        simp [hb]
      by_cases hne : b = []
      · exact absurd ⟨v, [], by simp [hb, hne]⟩ h
      · have hlen := congrArg List.length (hu b hne ⟨a, hb.symm⟩ hpre)
        simp [hb] at hlen
        simp [hlen]

theorem contains_iff {t needle : Text} : contains t needle = true ↔ needle <:+: t := by
  rw [contains, Option.isSome_iff_ne_none, ne_eq, cut?_eq_none_iff, Classical.not_not]

end MailMarkup.Text
