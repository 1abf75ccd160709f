import MailMarkup.Text.Basic

/-!
# Splitting and joining texts

The pieces of a text are those of the list operations, so what is known of these can be used.
-/
namespace MailMarkup.Text

def splitStep (sep : Char) (s : List Text × Text) (c : Char) : List Text × Text :=
  if c == sep then (s.2.reverse :: s.1, []) else (s.1, c :: s.2)

theorem foldl_splitStep (sep : Char) (t : Text) (s : List Text × Text) :
    ((t.foldl (splitStep sep) s).2.reverse :: (t.foldl (splitStep sep) s).1).reverse =
      s.1.reverse ++ (List.splitOn sep t).modifyHead (s.2.reverse ++ ·) := by
  induction t generalizing s with
  | nil => simp [List.splitOn_nil]
  | cons c t ih =>
    rw [List.splitOn_cons_eq_if_modifyHead, List.foldl_cons, ih]
    cases hs : List.splitOn sep t with
    | nil => exact absurd hs (List.splitOn_ne_nil sep t)
    | cons x xs => by_cases hc : (c == sep) = true <;> simp [splitStep, hc]

theorem splitOn_eq (sep : Char) (t : Text) : splitOn sep t = List.splitOn sep t := by
  have h := foldl_splitStep sep t ([], [])
  cases hs : List.splitOn sep t with
  | nil => exact absurd hs (List.splitOn_ne_nil sep t)
  | cons x xs =>
    rw [hs] at h
    exact h

theorem join_eq (sep : Text) (ts : List Text) : join sep ts = sep.intercalate ts := by
  induction ts with
  | nil => rfl
  | cons t ts ih =>
    cases ts with
    | nil => simp [join]
    | cons u us =>
      rw [List.intercalate_cons_cons, ← ih]
      simp [join]

theorem not_mem_of_mem_splitOn {sep : Char} {t u : Text} (h : u ∈ splitOn sep t) : sep ∉ u := by
  rw [splitOn_eq] at h
  induction t generalizing u with
  | nil => simp_all [List.splitOn_nil]
  | cons c t ih =>
    rw [List.splitOn_cons_eq_if_modifyHead] at h
    split at h
    · rcases List.mem_cons.1 h with rfl | h
      · simp
      · exact ih h
    · rename_i hc
      cases hs : List.splitOn sep t with
      | nil => simp [hs] at h
      | cons x xs =>
        rw [hs, List.modifyHead_cons] at h
        rcases List.mem_cons.1 h with rfl | h
        · have hx : sep ∉ x := ih (by simp [hs])
          simp only [beq_iff_eq] at hc
          simp [hx, Ne.symm hc]
        · exact ih (by simp [hs, h])

theorem join_splitOn (sep : Char) (t : Text) : join [sep] (splitOn sep t) = t := by
  rw [join_eq, splitOn_eq]
  exact List.intercalate_splitOn sep

theorem subset_join {sep u : Text} {ts : List Text} (h : u ∈ ts) : u ⊆ join sep ts := by
  cases ts with
  | nil => exact absurd h List.not_mem_nil
  | cons t ts =>
    intro x hx
    rcases List.mem_cons.1 h with rfl | h
    · exact List.mem_append_left _ hx
    · exact List.mem_append_right _
        (List.mem_flatMap.2 ⟨u, h, List.mem_append_right sep hx⟩)

theorem subset_of_mem_splitOn {sep : Char} {t u : Text} (h : u ∈ splitOn sep t) : u ⊆ t := by
  have hj : u ⊆ join [sep] (splitOn sep t) := subset_join h
  rwa [join_splitOn] at hj

end MailMarkup.Text
