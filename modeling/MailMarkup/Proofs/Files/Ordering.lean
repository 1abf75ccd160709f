import Mathlib.Data.List.Lex
import Mathlib.Data.List.Sort
import MailMarkup.Files.Path

/-!
# Paths in order

Paths are ordered by their steps, so the order is one of paths up to the way they are written. A
list of paths put in order says which paths it has, and nothing of the order they came in.
-/
namespace MailMarkup

theorem Step.key_injective : Function.Injective Step.key := by
  intro a b h
  have hname {m n : Text} (h : m.map Char.toNat = n.map Char.toNat) : m = n :=
    List.map_injective_iff.2 (fun _ _ => Char.toNat_inj.1) h
  cases a <;> cases b <;> simp_all [Step.key]
  exact hname h

namespace Path
variable {p q : Path} {ps qs : List Path}

/-- What paths are ordered by. -/
def keys (p : Path) : List (List Nat) := p.steps.map Step.key

private theorem keys_inj : p.keys = q.keys ↔ p.steps = q.steps :=
  (List.map_injective_iff.2 Step.key_injective).eq_iff

theorem same_iff : p.same q = true ↔ p.keys = q.keys := by
  rw [same, beq_iff_eq, keys_inj]

private theorem lex_steps (as bs : List Step) :
    as.lex bs Step.precedes = decide (as.map Step.key < bs.map Step.key) := by
  induction as generalizing bs with
  | nil => cases bs <;> simp
  | cons a as ih =>
    cases bs with
    | nil => simp
    | cons b bs =>
      rw [Bool.eq_iff_iff]
      simp [List.lex, Step.precedes, ih, List.cons_lt_cons_iff, Step.key_injective.eq_iff]

theorem le_iff : p.le q = true ↔ p.keys ≤ q.keys := by
  rw [le, lex_steps, Bool.not_eq_true', decide_eq_false_iff_not, not_lt, keys, keys]

/-- Paths, each before those that come later and each once. -/
def InOrder (ps : List Path) : Prop := ps.Pairwise fun p q => p.le q = true ∧ p.same q = false

theorem inOrder_iff : InOrder ps ↔ ps.Pairwise fun p q => p.keys < q.keys := by
  have h (p q : Path) : p.le q = true ∧ p.same q = false ↔ p.keys < q.keys := by
    rw [le_iff, ← Bool.not_eq_true, same_iff, lt_iff_le_and_ne]
  simp only [InOrder, h]

section eraseReps

private theorem loop_eq (p : Path) (ps acc : List Path) :
    List.eraseRepsBy.loop same p ps acc = acc.reverse ++ List.eraseRepsBy.loop same p ps [] := by
  induction ps generalizing p acc with
  | nil => simp [List.eraseRepsBy.loop]
  | cons q ps ih =>
    rw [List.eraseRepsBy.loop, List.eraseRepsBy.loop]
    split
    · exact ih p acc
    · rw [ih q (p :: acc), ih q [p]]
      simp

private theorem eraseReps_cons_cons (p q : Path) (ps : List Path) :
    (p :: q :: ps).eraseRepsBy same =
      if p.same q then (p :: ps).eraseRepsBy same else p :: (q :: ps).eraseRepsBy same := by
  simp only [List.eraseRepsBy]
  rw [List.eraseRepsBy.loop]
  cases p.same q with
  | true => rfl
  | false => exact loop_eq q ps [p]

private theorem eraseReps_sublist (p : Path) (ps : List Path) :
    ((p :: ps).eraseRepsBy same).Sublist (p :: ps) := by
  induction ps generalizing p with
  | nil => exact .refl _
  | cons q ps ih =>
    rw [eraseReps_cons_cons]
    split
    · exact (ih p).trans ((List.sublist_cons_self q ps).cons_cons p)
    · exact (ih q).cons_cons p

private theorem exists_mem_eraseReps (p : Path) (ps : List Path) :
    ∀ r ∈ p :: ps, ∃ r' ∈ (p :: ps).eraseRepsBy same, r'.keys = r.keys := by
  induction ps generalizing p with
  | nil => exact fun r hr => ⟨r, hr, rfl⟩
  | cons q ps ih =>
    intro r hr
    rw [eraseReps_cons_cons]
    split
    · rename_i hsame
      rcases List.mem_cons.1 hr with rfl | hr
      · exact ih r r List.mem_cons_self
      · rcases List.mem_cons.1 hr with rfl | hr
        · rw [← same_iff.1 hsame]
          exact ih p p List.mem_cons_self
        · exact ih p r (List.mem_cons_of_mem p hr)
    · rcases List.mem_cons.1 hr with rfl | hr
      · exact ⟨r, List.mem_cons_self, rfl⟩
      · obtain ⟨r', hr', heq⟩ := ih q r hr
        exact ⟨r', List.mem_cons_of_mem p hr', heq⟩

private theorem inOrder_eraseReps (p : Path) (ps : List Path)
    (h : (p :: ps).Pairwise fun p q => p.keys ≤ q.keys) :
    ((p :: ps).eraseRepsBy same).Pairwise fun p q => p.keys < q.keys := by
  induction ps generalizing p with
  | nil => exact List.pairwise_singleton _ p
  | cons q ps ih =>
    obtain ⟨hp, hq⟩ := List.pairwise_cons.1 h
    rw [eraseReps_cons_cons]
    split
    · exact ih p (h.sublist ((List.sublist_cons_self q ps).cons_cons p))
    · rename_i hsame
      refine List.pairwise_cons.2 ⟨fun r hr => ?_, ih q hq⟩
      have hlt : p.keys < q.keys :=
        lt_of_le_of_ne (hp q List.mem_cons_self) fun heq => hsame (same_iff.2 heq)
      rcases List.mem_cons.1 ((eraseReps_sublist q ps).subset hr) with rfl | hr
      · exact hlt
      · exact lt_of_lt_of_le hlt ((List.pairwise_cons.1 hq).1 r hr)

end eraseReps

private theorem pairwise_mergeSort_le (ps : List Path) :
    (ps.mergeSort le).Pairwise fun p q => p.keys ≤ q.keys := by
  refine (List.pairwise_mergeSort (fun p q r h h' => ?_) (fun p q => ?_) ps).imp le_iff.1
  · exact le_iff.2 (le_trans (le_iff.1 h) (le_iff.1 h'))
  · rw [Bool.or_eq_true, le_iff, le_iff]
    exact le_total p.keys q.keys

theorem inOrder_sorted (ps : List Path) : InOrder (sorted ps) := by
  have h := pairwise_mergeSort_le ps
  rw [inOrder_iff, sorted]
  generalize ps.mergeSort le = qs at h
  cases qs with
  | nil => exact .nil
  | cons p qs => exact inOrder_eraseReps p qs h

theorem mem_of_mem_sorted (h : p ∈ sorted ps) : p ∈ ps := by
  rw [sorted] at h
  refine (List.mergeSort_perm ps le).mem_iff.1 ?_
  generalize ps.mergeSort le = qs at h ⊢
  cases qs with
  | nil => exact h
  | cons q qs => exact (eraseReps_sublist q qs).subset h

theorem exists_mem_sorted (h : p ∈ ps) : ∃ q ∈ sorted ps, q.same p = true := by
  rw [sorted]
  replace h := (List.mergeSort_perm ps le).mem_iff.2 h
  simp only [same_iff]
  generalize ps.mergeSort le = qs at h
  cases qs with
  | nil => cases h
  | cons q qs => exact exists_mem_eraseReps q qs p h

/-- Paths in order are told by what they are. -/
theorem InOrder.steps_eq (hp : InOrder ps) (hq : InOrder qs)
    (h : ∀ p ∈ ps, ∃ q ∈ qs, q.same p = true) (h' : ∀ q ∈ qs, ∃ p ∈ ps, p.same q = true) :
    ps.map steps = qs.map steps := by
  have hsorted {ps : List Path} (h : InOrder ps) : (ps.map keys).SortedLT :=
    (List.pairwise_map.2 (inOrder_iff.1 h)).sortedLT
  have hkeys : ps.map keys = qs.map keys := by
    refine (hsorted hp).eq_of_mem_iff (hsorted hq) fun k => ?_
    simp only [same_iff] at h h'
    simp only [List.mem_map]
    constructor
    · rintro ⟨p, hp, rfl⟩
      exact h p hp
    · rintro ⟨q, hq, rfl⟩
      exact h' q hq
  have hinj : Function.Injective (List.map Step.key) := List.map_injective_iff.2 Step.key_injective
  refine List.map_injective_iff.2 hinj ?_
  rw [List.map_map, List.map_map]
  exact hkeys

end Path
end MailMarkup
