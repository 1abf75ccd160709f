import Mathlib
import MailMarkup.Proofs.Pattern.Rewriting
import MailMarkup.Proofs.Pattern.Spelling

/-!
# Alternatives that share a start

Alternatives whose sequences have a start in common are laid out with that start before the choice.
They still read what one of them reads, and are no heavier than a plain choice would be.
-/
namespace MailMarkup.Pattern.Expr
variable {a b : Expr} {as bs : List Expr} {t u : Trail} {n k : Nat}

private theorem reads_parts : (sequence a.parts).Reads t u ↔ a.Reads t u := by
  induction a generalizing t u with
  | both a b iha ihb =>
    rw [parts, reads_sequence_append]
    simp only [iha, ihb]
    rfl
  | _ => rfl

private theorem take_eq_of_sharedLength (h : n ≤ sharedLength as bs) : as.take n = bs.take n := by
  induction as generalizing bs n with
  | nil =>
    obtain rfl : n = 0 := Nat.le_zero.1 h
    rfl
  | cons a as ih =>
    cases bs with
    | nil =>
      obtain rfl : n = 0 := Nat.le_zero.1 h
      rfl
    | cons b bs =>
      cases n with
      | zero => rfl
      | succ n =>
        rw [sharedLength] at h
        split at h
        · rename_i hab
          rw [List.take_succ_cons, List.take_succ_cons, hab, ih (Nat.le_of_succ_le_succ h)]
        · exact absurd h (Nat.not_succ_le_zero n)

private theorem foldl_min_le (a : Expr) (n : Nat) :
    as.foldl (fun n b => min n (sharedLength a.parts b.parts)) n ≤ n ∧
      ∀ b ∈ as, as.foldl (fun n b => min n (sharedLength a.parts b.parts)) n ≤
        sharedLength a.parts b.parts := by
  induction as generalizing n with
  | nil => exact ⟨Nat.le_refl n, nofun⟩
  | cons b as ih =>
    obtain ⟨h, h'⟩ := ih (min n (sharedLength a.parts b.parts))
    refine ⟨Nat.le_trans h (Nat.min_le_left _ _), List.forall_mem_cons.2 ⟨?_, h'⟩⟩
    exact Nat.le_trans h (Nat.min_le_right _ _)

/-- Alternatives are a plain choice, or a start that all of them have and a choice of the rests. -/
theorem alternatives_cases (a : Expr) (as : List Expr) :
    alternatives (a :: as) = choice (a :: as) ∨
      ∃ n, (∀ b ∈ a :: as, b.parts.take n = a.parts.take n) ∧
        alternatives (a :: as) = sequence (a.parts.take n ++
          [choice ((a :: as).map fun b => sequence (b.parts.drop n))]) := by
  cases as with
  | nil => exact .inl rfl
  | cons b as =>
    generalize hn : (if ((a :: b :: as).map parts).any (fun s => decide (s.length < 2)) then 0
      else (b :: as).foldl (fun n b => min n (sharedLength a.parts b.parts)) a.parts.length) = n
    have halt : alternatives (a :: b :: as) = if n = 0 then choice (a :: b :: as)
        else sequence (a.parts.take n ++
          [choice (((a :: b :: as).map parts).map fun s => sequence (s.drop n))]) := by
      rw [alternatives, ← hn]
      simp
    by_cases h0 : n = 0
    · exact .inl (by rw [halt, if_pos h0])
    · have hfold : (b :: as).foldl (fun n b => min n (sharedLength a.parts b.parts))
          a.parts.length = n := by
        split at hn
        · exact absurd hn.symm h0
        · exact hn
      refine .inr ⟨n, List.forall_mem_cons.2 ⟨rfl, fun c hc => ?_⟩, ?_⟩
      · have hle := (foldl_min_le a a.parts.length).2 c hc
        rw [hfold] at hle
        exact (take_eq_of_sharedLength hle).symm
      · rw [halt, if_neg h0, List.map_map]
        rfl

theorem reads_alternatives_iff (hne : as ≠ []) :
    (alternatives as).Reads t u ↔ ∃ a ∈ as, a.Reads t u := by
  obtain ⟨a, as, rfl⟩ := List.exists_cons_of_ne_nil hne
  rcases alternatives_cases a as with h | ⟨n, hshared, h⟩
  · rw [h, reads_choice_iff hne]
  have hsplit (b : Expr) (hb : b ∈ a :: as) : b.Reads t u ↔
      ∃ m, (sequence (a.parts.take n)).Reads t m ∧ (sequence (b.parts.drop n)).Reads m u := by
    rw [← hshared b hb, ← reads_sequence_append, List.take_append_drop, reads_parts]
  rw [h, reads_sequence_append]
  constructor
  · rintro ⟨m, hm, hu⟩
    have hu : (choice ((a :: as).map fun b => sequence (b.parts.drop n))).Reads m u := hu
    obtain ⟨_, hc, hu⟩ := (reads_choice_iff (by simp)).1 hu
    obtain ⟨b, hb, rfl⟩ := List.mem_map.1 hc
    exact ⟨b, hb, (hsplit b hb).2 ⟨m, hm, hu⟩⟩
  · rintro ⟨b, hb, hr⟩
    obtain ⟨m, hm, hu⟩ := (hsplit b hb).1 hr
    exact ⟨m, hm, (reads_choice_iff (by simp)).2 ⟨_, List.mem_map_of_mem hb, hu⟩⟩

theorem spells_alternatives {ws : List Text} (hne : ws ≠ [])
    (hw : ∀ w ∈ ws, ∀ c ∈ w, IsFolded c) :
    (alternatives (ws.map word)).Spells {v : Text | ∃ w ∈ ws, v ∈ spellings w} where
  sound h := by
    rw [reads_alternatives_iff (by simpa using hne), ← reads_choice_iff (by simpa using hne)] at h
    exact (spells_words hne hw).sound h
  complete hv ht := by
    obtain ⟨notes, h⟩ := (spells_words hne hw).complete hv ht
    rw [reads_choice_iff (by simpa using hne), ← reads_alternatives_iff (by simpa using hne)] at h
    exact ⟨notes, h⟩

section weight

theorem weight_sequence (as : List Expr) : (sequence as).weight = (as.map weight).sum := by
  induction as with
  | nil => rfl
  | cons a as ih =>
    have hs : (sequence (a :: as)).weight = a.weight + (sequence as).weight := by cases as <;> rfl
    rw [hs, ih, List.map_cons, List.sum_cons]

private theorem sum_weight_parts (a : Expr) : (a.parts.map weight).sum = a.weight := by
  induction a with
  | both a b iha ihb => rw [parts, List.map_append, List.sum_append, iha, ihb, weight]
  | empty => rfl
  | _ => exact Nat.add_zero _

theorem weight_alternatives_le (h : ∀ a ∈ as, a.weight ≤ k) :
    (alternatives as).weight ≤ k + (k + 1) * as.length := by
  cases as with
  | nil => exact Nat.zero_le _
  | cons a as =>
    rcases alternatives_cases a as with ha | ⟨n, -, ha⟩
    · have := weight_choice_le h
      rw [ha]
      omega
    · have hsum (b : Expr) : ((b.parts.take n).map weight).sum + ((b.parts.drop n).map weight).sum =
          b.weight := by
        rw [← List.sum_append, ← List.map_append, List.take_append_drop, sum_weight_parts]
      have hparts : ∀ e ∈ (a :: as).map fun b => sequence (b.parts.drop n), e.weight ≤ k := by
        refine List.forall_mem_map.2 fun b hb => ?_
        have := hsum b
        have := h b hb
        rw [weight_sequence]
        omega
      have hrest := weight_choice_le hparts
      have := hsum a
      have := h a List.mem_cons_self
      rw [List.length_map] at hrest
      rw [ha, weight_sequence, List.map_append, List.sum_append, List.map_singleton,
        List.sum_singleton]
      omega

end weight

theorem ordered_parts (h : a.Ordered) : ∀ b ∈ a.parts, b.Ordered := by
  induction a with
  | both a b iha ihb => exact List.forall_mem_append.2 ⟨iha h.1, ihb h.2⟩
  | empty => exact nofun
  | _ => exact List.forall_mem_singleton.2 h

theorem ordered_alternatives (h : ∀ a ∈ as, a.Ordered) : (alternatives as).Ordered := by
  cases as with
  | nil => trivial
  | cons a as =>
    rcases alternatives_cases a as with ha | ⟨n, -, ha⟩
    · exact ha ▸ ordered_choice h
    · rw [ha]
      refine ordered_sequence (List.forall_mem_append.2 ⟨fun b hb => ?_, ?_⟩)
      · exact ordered_parts (h a List.mem_cons_self) b (List.mem_of_mem_take hb)
      · refine List.forall_mem_singleton.2 (ordered_choice (List.forall_mem_map.2 fun b hb => ?_))
        exact ordered_sequence fun c hc => ordered_parts (h b hb) c (List.mem_of_mem_drop hc)

/-- Whether no place is noted in an expression. -/
def groupFree : Expr → Bool
  | .empty | .one _ | .edge _ => true
  | .both a b | .either a b => a.groupFree && b.groupFree
  | .group _ _ => false
  | .repeated a _ _ _ => a.groupFree

theorem Reads.notes_eq (h : a.Reads t u) (ha : a.groupFree) : u.notes = t.notes := by
  induction a generalizing t u with
  | empty =>
    cases h
    rfl
  | one set =>
    obtain ⟨-, rfl⟩ := h
    rfl
  | edge e =>
    obtain ⟨-, rfl⟩ := h
    rfl
  | both a b iha ihb =>
    obtain ⟨m, hm, h⟩ := h
    obtain ⟨ha, hb⟩ := Bool.and_eq_true_iff.1 ha
    exact (ihb h hb).trans (iha hm ha)
  | either a b iha ihb =>
    obtain ⟨ha, hb⟩ := Bool.and_eq_true_iff.1 ha
    exact h.elim (iha · ha) (ihb · hb)
  | group i a => nomatch ha
  | repeated a least extra greedy ih =>
    obtain ⟨k, -, -, h⟩ := h
    induction k generalizing t with
    | zero =>
      cases h
      rfl
    | succ k ihk =>
      obtain ⟨m, hm, h⟩ := h
      exact (ihk h).trans (ih hm ha)

theorem groupFree_word (w : Text) : (word w).groupFree := by
  induction w with
  | nil => rfl
  | cons c w ih =>
    cases w with
    | nil => rfl
    | cons d w => exact Bool.and_eq_true_iff.2 ⟨rfl, ih⟩

/-- A group takes a text of its language, and notes where the text starts and ends. -/
theorem Spells.noted {l : Language Char} {i : Nat} (hs : a.Spells l)
    (hn : ∀ {t u}, a.Reads t u → u.notes = t.notes) (h : (Expr.group i a).Reads t u) :
    ∃ v ∈ l, t.place.rest = v ++ u.place.rest ∧ u.place = t.place.advance v.length ∧
      t.place.upTo u.place = v ∧
      u.notes = (2 * i + 1, u.place) :: (2 * i, t.place) :: t.notes := by
  obtain ⟨m, hm, rfl⟩ := h
  obtain ⟨v, hv, hr, hp⟩ := hs.sound hm
  have hup : t.place.upTo m.place = v := by
    rw [hp]
    exact Cursor.upTo_advance hr
  refine ⟨v, hv, hr, hp, hup, ?_⟩
  rw [Trail.note, hn hm]
  rfl

end MailMarkup.Pattern.Expr
