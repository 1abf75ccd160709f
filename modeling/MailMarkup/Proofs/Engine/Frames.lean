import MailMarkup.Proofs.Engine.Operation
import MailMarkup.Proofs.Repair.Judgement
import MailMarkup.Proofs.Repair.Sequence
import MailMarkup.Proofs.Rule.Policies

/-!
# What the work on documents leaves alone

Validations, repairs and reports on compatibility use caches and counters. Settings and rules stay
as they are, and so do the policies of the trees and of the history, whatever the rules do. The
policy of the patterns stays as long as the rules leave it alone.
-/
namespace MailMarkup

/-- However rules act, those that leave the policy of the patterns alone do so at every call. -/
def Conduct.LeavesPolicy (c : Conduct) : Prop := ∀ n r, r.LeavesPolicy → (c.act n r).LeavesPolicy

theorem Conduct.leavesPolicy_steady : Conduct.steady.LeavesPolicy := fun _ _ h => h

theorem Conduct.LeavesPolicy.acting {c : Conduct} (hc : c.LeavesPolicy) {rules : List Rule}
    (h : ∀ r ∈ rules, r.LeavesPolicy) : ∀ r ∈ c.acting rules, r.LeavesPolicy := by
  intro r hr
  obtain ⟨i, hi, rfl⟩ := List.mem_mapIdx.1 hr
  exact hc i _ (h _ (List.getElem_mem hi))

namespace Repair
variable {c : Conduct} {s : Settings} {ceiling : Nat} {r : Rule} {rules : List Rule}

private theorem policy_attempt (h : r.LeavesPolicy) (html : Text) (w : Workshop) :
    (attempt s r html w).2.patterns.policy = w.patterns.policy := by
  have hr := (h.repaired ⟨html, s⟩).runAlone w
  unfold attempt
  split
  · rfl
  · rcases ha : (r.repaired ⟨html, s⟩).runAlone w with ⟨_ | new, w'⟩ <;> rw [ha] at hr
    · exact hr
    · dsimp only
      split
      · exact hr
      · have hs := (leavesPolicy_isSound html new).runAlone w'
        rcases hb : (isSound html new).runAlone w' with ⟨_ | (_ | _), w''⟩ <;> rw [hb] at hs <;>
          exact hs.trans hr

private theorem policy_apply (hc : c.LeavesPolicy) (h : r.LeavesPolicy) (p : Pass) :
    (Pass.apply c s ceiling p r).workshop.patterns.policy = p.workshop.patterns.policy := by
  have ha := policy_attempt (s := s) (hc p.calls r h) p.html p.workshop
  unfold Pass.apply
  rcases hv : attempt s (c.act p.calls r) p.html p.workshop with ⟨_ | _ | new, w⟩ <;> rw [hv] at ha
  · exact ha
  · exact ha
  · dsimp only
    split <;> exact ha

private theorem policy_foldl (hc : c.LeavesPolicy) (h : ∀ r ∈ rules, r.LeavesPolicy) (p : Pass) :
    (rules.foldl (Pass.apply c s ceiling) p).workshop.patterns.policy =
      p.workshop.patterns.policy := by
  induction rules generalizing p with
  | nil => rfl
  | cons r rules ih =>
    obtain ⟨hr, hrules⟩ := List.forall_mem_cons.1 h
    exact (ih hrules _).trans (policy_apply hc hr p)

private theorem policy_passes (hc : c.LeavesPolicy) (h : ∀ r ∈ rules, r.LeavesPolicy) (n : Nat)
    (p : Progress) :
    (passes c s ceiling rules n p).workshop.patterns.policy = p.workshop.patterns.policy := by
  induction n generalizing p with
  | zero => rfl
  | succ n ih =>
    have hp : (p.pass c s ceiling rules).workshop.patterns.policy = p.workshop.patterns.policy :=
      policy_foldl hc h p.start
    by_cases hq : (p.pass c s ceiling rules).changed = []
    · rw [passes_of_unchanged n hq]
      exact hp
    · rw [passes_of_changed n hq, ih]
      exact hp

private theorem policy_run (hc : c.LeavesPolicy) (h : ∀ r ∈ rules, r.LeavesPolicy) (html : Text)
    (w : Workshop) : (run s rules html w c).workshop.patterns.policy = w.patterns.policy := by
  cases ha : admits s rules html with
  | true =>
    rw [run_of_admitted ha]
    exact policy_passes hc h _ _
  | false => rw [run_of_not_admitted ha]

namespace Ledger

private theorem policy_repair (l : Ledger) (html : Text) (w : Workshop) :
    (l.repair s rules html w c).2.1.history.policy = l.history.policy := by
  unfold repair
  dsimp only
  split
  · simp [enter]
  · rfl

private theorem patterns_repair (hc : c.LeavesPolicy) (h : ∀ r ∈ rules, r.LeavesPolicy) (l : Ledger)
    (html : Text) (w : Workshop) :
    (l.repair s rules html w c).2.2.patterns.policy = w.patterns.policy := by
  have hr := policy_run (s := s) hc h html w
  unfold repair
  dsimp only
  split <;> exact hr

end Ledger

private theorem mem_of_mem_sequence {g : Registry} {include_ : Rule → Bool}
    (h : r ∈ sequence g s include_) : r ∈ g.rules := by
  rw [sequence_eq, List.mem_append, List.mem_append, (byName_perm _).mem_iff,
    (byName_perm _).mem_iff, List.mem_filter, List.mem_filter, List.mem_filter] at h
  rcases h with (⟨h, -⟩ | ⟨h, -⟩) | ⟨h, -⟩
  · obtain ⟨name, -, hname⟩ := List.mem_filterMap.1 h
    exact List.mem_append_left _ (List.mem_of_find?_eq_some hname)
  · exact List.mem_append_left _ (List.mem_filter.1 h).1
  · exact List.mem_append_right _ h

end Repair

namespace Engine
variable {c : Conduct} {e : Engine}

/-- The same settings and rules, and the same policies of trees and history. -/
structure Keeps (e e' : Engine) : Prop where
  settings : e'.settings = e.settings
  registry : e'.registry = e.registry
  trees : e'.trees.policy = e.trees.policy
  history : e'.ledger.history.policy = e.ledger.history.policy

theorem Keeps.refl (e : Engine) : Keeps e e := ⟨rfl, rfl, rfl, rfl⟩

/-- A tree is taken from its cache or comes into it; no pattern is asked for. -/
theorem keeps_treeOf (e : Engine) (html : Text) :
    Keeps e (e.treeOf html).2 ∧ (e.treeOf html).2.workshop.patterns = e.workshop.patterns := by
  have ht := e.trees.policy_get e.workshop.clock html
  unfold treeOf
  split <;> rename_i hg <;> rw [hg] at ht
  · exact ⟨⟨rfl, rfl, ht, rfl⟩, rfl⟩
  · exact ⟨⟨rfl, rfl, (Cache.policy_insert _ _ html _).trans ht, rfl⟩, rfl⟩

private theorem policy_surveyed {r : Rule} (h : r.LeavesPolicy) (subject : Subject)
    (forest : Forest) (v : Survey) :
    (Survey.apply subject forest v r).workshop.patterns.policy = v.workshop.patterns.policy := by
  unfold Survey.apply
  split
  · cases ht : r.treeCheck with
    | some check => exact h.treeCheck check ht subject forest r.info v.index v.workshop
    | none => exact (h.check subject r.info).runAlone v.workshop
  · rfl

private theorem policy_survey {rules : List Rule} (h : ∀ r ∈ rules, r.LeavesPolicy)
    (subject : Subject) (forest : Forest) (v : Survey) :
    (rules.foldl (Survey.apply subject forest) v).workshop.patterns.policy =
      v.workshop.patterns.policy := by
  induction rules generalizing v with
  | nil => rfl
  | cons r rules ih =>
    obtain ⟨hr, hrules⟩ := List.forall_mem_cons.1 h
    exact (ih hrules _).trans (policy_surveyed hr subject forest v)

theorem keeps_validate (e : Engine) (html : Text) (c : Conduct) :
    Keeps e (e.validate html c).2 := by
  refine whenActive_snd (.refl e) ?_
  dsimp only
  split
  · exact ⟨rfl, rfl, rfl, rfl⟩
  · obtain ⟨⟨hs, hr, ht, hh⟩, -⟩ := keeps_treeOf
      { e with counters := { e.counters with validations := e.counters.validations + 1 } } html
    exact ⟨hs, hr, ht, hh⟩

theorem patterns_validate (hc : c.LeavesPolicy) (h : ∀ r ∈ e.registry.rules, r.LeavesPolicy)
    (html : Text) :
    (e.validate html c).2.workshop.patterns.policy = e.workshop.patterns.policy := by
  refine whenActive_snd (P := fun e' => e'.workshop.patterns.policy = _) rfl ?_
  dsimp only
  split
  · rfl
  · obtain ⟨⟨-, hr, -, -⟩, hw⟩ := keeps_treeOf
      { e with counters := { e.counters with validations := e.counters.validations + 1 } } html
    exact (policy_survey (hc.acting fun r hm => h r (congrArg (·.rules) hr ▸ hm)) _ _ _).trans
      (congrArg (·.policy) hw)

theorem keeps_repairWith (e : Engine) (html : Text) (include_ : Rule → Bool) (c : Conduct) :
    Keeps e (e.repairWith html include_ c).2 :=
  whenActive_snd (.refl e) ⟨rfl, rfl, rfl, Repair.Ledger.policy_repair _ html _⟩

theorem patterns_repairWith (hc : c.LeavesPolicy) (h : ∀ r ∈ e.registry.rules, r.LeavesPolicy)
    (html : Text) (include_ : Rule → Bool) :
    (e.repairWith html include_ c).2.workshop.patterns.policy = e.workshop.patterns.policy :=
  whenActive_snd (P := fun e' => e'.workshop.patterns.policy = _) rfl
    (Repair.Ledger.patterns_repair hc (fun r hr => h r (Repair.mem_of_mem_sequence hr)) _ html _)

theorem keeps_compatibility (e : Engine) (html : Text) :
    Keeps e (e.compatibility html).2 ∧
      (e.compatibility html).2.workshop.patterns.policy = e.workshop.patterns.policy := by
  have hp := (Compatibility.leavesPolicy_report ⟨html, e.settings⟩).runAlone e.workshop
  refine whenActive_snd
    (P := fun e' => Keeps e e' ∧ e'.workshop.patterns.policy = e.workshop.patterns.policy)
    ⟨.refl e, rfl⟩ ?_
  split <;> rename_i hr <;> rw [hr] at hp <;> exact ⟨⟨rfl, rfl, rfl, rfl⟩, hp⟩

end Engine
end MailMarkup
