import Mathlib
import MailMarkup.Proofs.Rule.Registration
import MailMarkup.Repair.Sequence

/-!
# Which repairs run, and in which order

The sequence of repairs is put together from three parts, each found in a way of its own: the set
order is looked up name by name, and the other built-in rules and the added ones are sorted. In a
registry in which no two rules have one name nothing is lost between the parts and nothing comes
twice, so the sequence holds the eligible rules, each once.
-/
namespace MailMarkup.Repair
open Registry

section byName
variable {rules : List Rule}

theorem byName_perm (rules : List Rule) : (byName rules).Perm rules := List.mergeSort_perm _ _

private theorem byName_sorted (rules : List Rule) :
    (byName rules).Pairwise fun a b => a.name ≤ b.name := by
  have htrans (a b c : Rule) (hab : decide (a.name ≤ b.name) = true)
      (hbc : decide (b.name ≤ c.name) = true) : decide (a.name ≤ c.name) = true :=
    decide_eq_true (le_trans (of_decide_eq_true hab) (of_decide_eq_true hbc))
  have htotal (a b : Rule) : (decide (a.name ≤ b.name) || decide (b.name ≤ a.name)) = true := by
    rw [Bool.or_eq_true, decide_eq_true_iff, decide_eq_true_iff]
    exact le_total a.name b.name
  exact (List.pairwise_mergeSort htrans htotal rules).imp of_decide_eq_true

theorem byName_increasing (h : (rules.map Rule.name).Nodup) :
    (byName rules).Pairwise fun a b => a.name < b.name := by
  have hdistinct : (byName rules).Pairwise fun a b => a.name ≠ b.name :=
    List.pairwise_map.1 (((byName_perm rules).map Rule.name).nodup_iff.2 h)
  refine ((byName_sorted rules).and hdistinct).imp ?_
  rintro a b ⟨hle, hne⟩
  exact lt_of_le_of_ne hle hne

end byName

/-- The rules of the given names, in the order of the names. -/
def inOrder (order : List String) (rules : List Rule) : List Rule :=
  order.filterMap fun name => rules.find? (·.name == name)

section inOrder
variable {order : List String} {rules : List Rule} {r : Rule}

private theorem find?_name_of_mem (h : (rules.map Rule.name).Nodup) (hr : r ∈ rules) :
    rules.find? (·.name == r.name) = some r := by
  obtain ⟨r', hr'⟩ := Option.isSome_iff_exists.1
    (find?_name_isSome.2 (List.mem_map_of_mem (f := Rule.name) hr))
  have hname : r'.name = r.name := by simpa using List.find?_some hr'
  rw [hr', List.inj_on_of_nodup_map h (List.mem_of_find?_eq_some hr') hr hname]

theorem mem_inOrder (h : (rules.map Rule.name).Nodup) :
    r ∈ inOrder order rules ↔ r ∈ rules ∧ r.name ∈ order := by
  rw [inOrder, List.mem_filterMap]
  constructor
  · rintro ⟨name, hname, hr⟩
    obtain rfl : r.name = name := by simpa using List.find?_some hr
    exact ⟨List.mem_of_find?_eq_some hr, hname⟩
  · rintro ⟨hr, hname⟩
    exact ⟨_, hname, find?_name_of_mem h hr⟩

theorem names_inOrder_sublist (order : List String) (rules : List Rule) :
    ((inOrder order rules).map Rule.name).Sublist order := by
  induction order with
  | nil => exact List.Sublist.refl _
  | cons name order ih =>
    rw [inOrder, List.filterMap_cons]
    split
    · exact ih.cons _
    · rename_i r hr
      obtain rfl : r.name = name := by simpa using List.find?_some hr
      exact ih.cons_cons _

private theorem inOrder_perm (h : (rules.map Rule.name).Nodup) (ho : order.Nodup) :
    (inOrder order rules).Perm (rules.filter fun r => order.contains r.name) := by
  have hnodup : ((inOrder order rules).map Rule.name).Nodup :=
    ho.sublist (names_inOrder_sublist order rules)
  refine (List.perm_ext_iff_of_nodup hnodup.of_map (h.of_map.filter _)).2 fun r => ?_
  rw [mem_inOrder h, List.mem_filter, List.contains_iff_mem]

end inOrder

section sequence
variable {g : Registry} (s : Settings) (include_ : Rule → Bool)

/-- The rule has a repair, runs under the settings and is included. -/
def isEligible (r : Rule) : Bool := r.info.fixable && s.enables r.info && include_ r

/-- The built-in rules that the set order does not name. -/
def unordered (g : Registry) : List Rule := g.builtin.filter fun r => !fixOrder.contains r.name

theorem sequence_eq (g : Registry) :
    sequence g s include_ =
      (inOrder fixOrder g.builtin).filter (isEligible s include_) ++
        byName ((unordered g).filter (isEligible s include_)) ++
        byName (g.custom.filter (isEligible s include_)) := rfl

private theorem nodup_fixOrder : fixOrder.Nodup := by decide

theorem sequence_perm (h : g.Distinct) :
    (sequence g s include_).Perm (g.rules.filter (isEligible s include_)) := by
  obtain ⟨hb, -, -⟩ := distinct_iff.1 h
  have hordered := (inOrder_perm hb nodup_fixOrder).filter (isEligible s include_)
  have hbuiltin : ((g.builtin.filter fun r => fixOrder.contains r.name) ++ unordered g).Perm
      g.builtin := List.filter_append_perm _ _
  rw [sequence_eq, rules, List.filter_append]
  refine List.Perm.append ?_ (byName_perm _)
  refine (hordered.append (byName_perm _)).trans ?_
  rw [← List.filter_append]
  exact hbuiltin.filter _

private theorem sequence_names_nodup (h : g.Distinct) :
    ((sequence g s include_).map Rule.name).Nodup :=
  ((sequence_perm s include_ h).map Rule.name).nodup_iff.2
    (List.Nodup.sublist (List.filter_sublist.map _) h)

/-- However a registry came about, from nothing or from the built-in rules: the sequence of repairs
holds the rules that have a repair, run under the settings and are included, each of them once and
no other. First come built-in rules that the set order names, in that order, then the other built-in
ones and then the added ones, each in strictly increasing order of their names. -/
theorem sequence_arranged (standard : Bool) (ops : List Operation) :
    let g := (if standard then Registry.standard else {}).after ops
    (sequence g s include_).Perm
        (g.rules.filter fun r => r.info.fixable && s.enables r.info && include_ r) ∧
      ((sequence g s include_).map Rule.name).Nodup ∧
      ∃ first others added : List Rule,
        sequence g s include_ = first ++ others ++ added ∧
        (∀ r ∈ first, r ∈ g.builtin) ∧ (first.map Rule.name).Sublist fixOrder ∧
        (∀ r ∈ others, r ∈ g.builtin ∧ r.name ∉ fixOrder) ∧
        (others.Pairwise fun a b => a.name < b.name) ∧
        (∀ r ∈ added, r ∈ g.custom) ∧ added.Pairwise fun a b => a.name < b.name := by
  intro g
  have hd : g.Distinct := by
    cases standard with
    | false => exact distinct_empty.after ops
    | true => exact distinct_standard.after ops
  obtain ⟨hb, hc, -⟩ := distinct_iff.1 hd
  refine ⟨sequence_perm s include_ hd, sequence_names_nodup s include_ hd, _, _, _,
    sequence_eq s include_ g, fun r hr => ?_, ?_, fun r hr => ?_, ?_, fun r hr => ?_, ?_⟩
  · exact ((mem_inOrder hb).1 (List.mem_of_mem_filter hr)).1
  · exact (List.filter_sublist.map _).trans (names_inOrder_sublist _ _)
  · have hr' := List.mem_of_mem_filter ((byName_perm _).mem_iff.1 hr)
    simpa [unordered] using hr'
  · refine byName_increasing (hb.sublist (List.Sublist.map _ ?_))
    exact List.filter_sublist.trans List.filter_sublist
  · exact List.mem_of_mem_filter ((byName_perm _).mem_iff.1 hr)
  · exact byName_increasing (hc.sublist (List.filter_sublist.map _))

end sequence
end MailMarkup.Repair
