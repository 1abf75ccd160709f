import Mathlib.Data.List.Basic
import MailMarkup.Proofs.Files.Places

/-!
# The steps of a path

A path that is put together from two has the steps of both, unless the second starts anew. So the
steps of the copy of a file are those of the directory for copies, and the names in the path of the
file.
-/
namespace MailMarkup

/-- A name that can be a step of a path. -/
structure IsStepName (n : Text) : Prop where
  step : Step.ofPiece? n = some (.name n)
  noSlash : '/' ∉ n

namespace Path
variable {p q : Path} {n : Text} {ns : List Text}

theorem pieces_ne_nil (p : Path) : p.pieces ≠ [] := by
  rw [pieces, Text.splitOn_eq]
  exact List.splitOn_ne_nil _ _

theorem pieces_append (t u : Text) : pieces ⟨t ++ '/' :: u⟩ = pieces ⟨t⟩ ++ pieces ⟨u⟩ := by
  simp only [pieces, Text.splitOn_eq]
  exact @List.splitOnP_append_cons Char (· == '/') t u '/' rfl

/-- What a path starts with if it is not a name or a step up. -/
def lead (p : Path) : List Step :=
  if p.isAbsolute then [.root] else if p.pieces.head? == some ['.'] then [.here] else []

theorem steps_eq (p : Path) : p.steps = p.lead ++ p.pieces.filterMap Step.ofPiece? := rfl

private theorem lead_append (t u : Text) : lead ⟨t ++ '/' :: u⟩ = lead ⟨t ++ ['/']⟩ := by
  have habs : isAbsolute ⟨t ++ '/' :: u⟩ = isAbsolute ⟨t ++ ['/']⟩ := by cases t <;> rfl
  have hhead (u : Text) : (pieces ⟨t ++ '/' :: u⟩).head? = (pieces ⟨t⟩).head? := by
    rw [pieces_append, List.head?_append_of_ne_nil _ (pieces_ne_nil _)]
  rw [lead, lead, habs, hhead, hhead]

/-- A slash at the end adds nothing, unless the path is empty. -/
theorem steps_slash {t : Text} (ht : t ≠ []) : steps ⟨t ++ ['/']⟩ = steps ⟨t⟩ := by
  have habs : isAbsolute ⟨t ++ ['/']⟩ = isAbsolute ⟨t⟩ := by
    obtain ⟨x, t, rfl⟩ := List.exists_cons_of_ne_nil ht
    rfl
  have hhead : (pieces ⟨t ++ ['/']⟩).head? = (pieces ⟨t⟩).head? := by
    rw [pieces_append, List.head?_append_of_ne_nil _ (pieces_ne_nil _)]
  rw [steps_eq, steps_eq, lead, lead, habs, hhead, pieces_append, List.filterMap_append]
  exact congrArg _ (List.append_nil _)

theorem steps_append {t u : Text} (hu : lead ⟨u⟩ = []) :
    steps ⟨t ++ '/' :: u⟩ = steps ⟨t ++ ['/']⟩ ++ steps ⟨u⟩ := by
  rw [steps_eq, steps_eq, steps_eq ⟨u⟩, lead_append, hu, pieces_append, pieces_append t [],
    List.filterMap_append, List.filterMap_append]
  have hempty : (pieces ⟨[]⟩).filterMap Step.ofPiece? = [] := rfl
  rw [hempty, List.append_nil, List.nil_append, List.append_assoc]

theorem steps_join (hq : q.lead = []) : (p.join q).steps = p.steps ++ q.steps := by
  have habs : q.isAbsolute = false := by
    rw [← Bool.not_eq_true]
    intro h
    rw [lead, if_pos h] at hq
    cases hq
  rw [join, habs]
  obtain ⟨t⟩ := p
  simp only [Bool.false_eq_true, if_false]
  rcases List.eq_nil_or_concat t with rfl | ⟨t, x, rfl⟩
  · rfl
  · by_cases hx : x = '/'
    · subst hx
      have hlast : (t.concat '/').getLast? = some '/' := by simp
      rw [hlast]
      simp only [BEq.rfl, Bool.or_true, if_true, List.concat_eq_append, List.append_assoc,
        List.singleton_append]
      exact steps_append hq
    · have hlast : ((t.concat x).isEmpty || (t.concat x).getLast? == some '/') = false := by
        simp [hx]
      rw [hlast]
      simp only [Bool.false_eq_true, if_false]
      rw [steps_append hq, steps_slash (by simp)]

private theorem lead_eq_nil (h : ∀ x ∈ p.pieces.head?, Step.ofPiece? x ≠ none) : p.lead = [] := by
  have habs : p.isAbsolute = false := by
    rw [← Bool.not_eq_true, isAbsolute, beq_iff_eq, List.head?_eq_some_iff]
    rintro ⟨t, ht⟩
    have hpieces : p.pieces = pieces ⟨[]⟩ ++ pieces ⟨t⟩ := by
      rw [← pieces_append, pieces, ht]
      rfl
    exact h [] (by rw [hpieces]; rfl) rfl
  have hhere : p.pieces.head? ≠ some ['.'] := fun hhead => h ['.'] (by rw [hhead]; rfl) rfl
  rw [lead, habs]
  simp [hhere]

theorem ofSteps_names (ns : List Text) : ofSteps (ns.map .name) = ofPieces ns := by
  cases ns <;> simp [ofSteps, ofPieces, Function.comp_def, Step.text]

/-- The plainest path with some names has these names. -/
theorem steps_ofSteps (h : ∀ n ∈ ns, IsStepName n) :
    (ofSteps (ns.map .name)).lead = [] ∧ (ofSteps (ns.map .name)).steps = ns.map .name := by
  rw [ofSteps_names]
  cases ns with
  | nil => exact ⟨rfl, rfl⟩
  | cons n ns =>
    have hpieces := pieces_ofPieces (List.cons_ne_nil n ns) fun m hm => (h m hm).noSlash
    have hlead : (ofPieces (n :: ns)).lead = [] := by
      refine lead_eq_nil fun x hx => ?_
      rw [hpieces] at hx
      obtain rfl : n = x := Option.some.inj hx
      rw [(h n List.mem_cons_self).step]
      exact nofun
    refine ⟨hlead, ?_⟩
    rw [steps_eq, hlead, hpieces, List.nil_append]
    generalize n :: ns = ms at h
    induction ms with
    | nil => rfl
    | cons m ms ih =>
      obtain ⟨hm, hms⟩ := List.forall_mem_cons.1 h
      rw [List.filterMap_cons_some hm.step, ih hms, List.map_cons]

theorem steps_child (h : IsStepName n) : (p.child n).steps = p.steps ++ [.name n] := by
  have hone : ofSteps [.name n] = ⟨n⟩ := by simp [ofSteps, Step.text, Text.join]
  obtain ⟨hlead, hsteps⟩ := steps_ofSteps (List.forall_mem_singleton.2 h)
  rw [List.map_singleton, hone] at hlead hsteps
  rw [child, steps_join hlead, hsteps]

private theorem isStepName_of_mem (h : .name n ∈ p.steps) : IsStepName n := by
  have hmem : .name n ∈ p.pieces.filterMap Step.ofPiece? := by
    rw [steps_eq, List.mem_append] at h
    refine h.resolve_left fun h => ?_
    rw [lead] at h
    split at h
    · simp at h
    · split at h <;> simp at h
  obtain ⟨x, hx, hstep⟩ := List.mem_filterMap.1 hmem
  obtain rfl : x = n := by
    rw [Step.ofPiece?] at hstep
    split at hstep
    · cases hstep
    · split at hstep <;> cases hstep
      rfl
  exact ⟨hstep, Text.not_mem_of_mem_splitOn hx⟩

theorem exists_names (p : Path) :
    ∃ ns : List Text, p.steps.filter Step.isName = ns.map .name ∧ ∀ n ∈ ns, IsStepName n := by
  have hall : ∀ s ∈ p.steps.filter Step.isName, ∃ n, IsStepName n ∧ .name n = s := by
    intro s hs
    obtain ⟨hs, hname⟩ := List.mem_filter.1 hs
    cases s with
    | name n => exact ⟨n, isStepName_of_mem hs, rfl⟩
    | _ => cases hname
  generalize p.steps.filter Step.isName = ss at hall
  induction ss with
  | nil => exact ⟨[], rfl, nofun⟩
  | cons s ss ih =>
    obtain ⟨⟨n, hn, rfl⟩, hrest⟩ := List.forall_mem_cons.1 hall
    obtain ⟨ns, rfl, hns⟩ := ih hrest
    exact ⟨n :: ns, rfl, List.forall_mem_cons.2 ⟨hn, hns⟩⟩

/-- A copy goes where the directory for copies and the names in the path say. -/
theorem steps_copyUnder (dir p : Path) :
    (dir.copyUnder p).steps = dir.steps ++ p.steps.filter Step.isName := by
  obtain ⟨ns, hns, hnames⟩ := exists_names p
  obtain ⟨hlead, hsteps⟩ := steps_ofSteps hnames
  rw [copyUnder, hns, steps_join hlead, hsteps]

end Path
end MailMarkup
