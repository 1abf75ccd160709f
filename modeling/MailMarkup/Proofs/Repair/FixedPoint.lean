import MailMarkup.Proofs.Cache.Contents
import MailMarkup.Proofs.Repair.Safety
import MailMarkup.Repair.History

/-!
# Repairing twice

A pass that changes nothing and drops nothing for its length has shown that no rule has a repair
that is worth taking. That does not depend on the ceiling of the run, so a second run changes
nothing.
-/
namespace MailMarkup.Repair
open Text
variable {s : Settings} {ceiling : Nat} {rules : List Rule} {w : Workshop}

/-- No rule has a repair of the text that is worth taking. -/
def Settled (s : Settings) (rules : List Rule) (html : Text) : Prop :=
  ∀ r ∈ rules, ∀ new, ¬ Accepts s r html new

private theorem Pass.foldl_settled (ceiling : Nat) (rules : List Rule) (p : Pass)
    (hw : p.workshop.Faithful) (h : Settled s rules p.html) :
    (rules.foldl (Pass.apply .steady s ceiling) p).changed = p.changed ∧
      (rules.foldl (Pass.apply .steady s ceiling) p).withinBounds = p.withinBounds := by
  induction rules generalizing p with
  | nil => exact ⟨rfl, rfl⟩
  | cons r rules ih =>
    obtain ⟨hh, hc, hb⟩ := Pass.apply_refused (c := .steady) ceiling hw (h r List.mem_cons_self)
    have ht : Settled s rules (Pass.apply .steady s ceiling p r).html := by
      rw [hh]
      exact fun r' hr' => h r' (List.mem_cons_of_mem r hr')
    obtain ⟨hc', hb'⟩ := ih _ (Pass.apply_faithful .steady s ceiling r hw) ht
    exact ⟨hc'.trans hc, hb'.trans hb⟩

/-- A pass that changes nothing and drops nothing for its length finds nothing worth taking. -/
theorem Pass.settled_of_unchanged (rules : List Rule) (p : Pass) (hw : p.workshop.Faithful)
    (hc : (rules.foldl (Pass.apply .steady s ceiling) p).changed = p.changed)
    (hb : (rules.foldl (Pass.apply .steady s ceiling) p).withinBounds = true) :
    Settled s rules p.html ∧ p.withinBounds = true := by
  induction rules generalizing p with
  | nil => exact ⟨List.forall_mem_nil _, hb⟩
  | cons r rules ih =>
    have hw' := Pass.apply_faithful .steady s ceiling r hw
    rw [List.foldl_cons] at hc hb
    by_cases ha : ∃ new, Accepts s r p.html new
    · obtain ⟨new, ha⟩ := ha
      rcases Nat.lt_or_ge ceiling (byteSize new) with hl | hl
      · obtain ⟨-, hn, hf⟩ := Pass.apply_tooLong (c := .steady) hw ha hl
        have hb' := (ih _ hw' (hc.trans hn.symm) hb).2
        exact absurd (hf.symm.trans hb') Bool.false_ne_true
      · obtain ⟨-, hn, -⟩ := Pass.apply_accepted (c := .steady) hw ha hl
        obtain ⟨names, -, hr⟩ := Pass.foldl_takes .steady s ceiling rules _ hw'
        have hlen := congrArg List.length hr
        simp [hc, hn] at hlen
    · obtain ⟨hh, hn, hf⟩ := Pass.apply_refused (c := .steady) ceiling hw fun new hn => ha ⟨new, hn⟩
      obtain ⟨ht, hb'⟩ := ih _ hw' (hc.trans hn.symm) hb
      rw [hh] at ht
      refine ⟨?_, hf.symm.trans hb'⟩
      intro r' hr' new hnew
      rcases List.mem_cons.1 hr' with rfl | hr'
      · exact ha ⟨new, hnew⟩
      · exact ht r' hr' new hnew

private theorem passes_settled (rules : List Rule) (n : Nat) {p : Progress}
    (hw : p.workshop.Faithful) (hn : (passes .steady s ceiling rules n p).passes < p.passes + n)
    (hs : (passes .steady s ceiling rules n p).success = true) :
    Settled s rules (passes .steady s ceiling rules n p).outcome.html := by
  induction n generalizing p with
  | zero => exact absurd hn (Nat.lt_irrefl _)
  | succ n ih =>
    by_cases hc : (p.pass .steady s ceiling rules).changed = []
    · rw [passes_of_unchanged n hc] at hs ⊢
      exact (Pass.settled_of_unchanged rules _ hw hc hs).1
    · rw [passes_of_changed n hc] at hn hs ⊢
      have hp : (p.advanced (p.pass .steady s ceiling rules)).passes = p.passes + 1 := rfl
      exact ih (Progress.pass_faithful .steady s ceiling rules hw) (by omega) hs

/-- From a settled text one more pass is made, if any, and it changes nothing. -/
theorem passes_of_settled (rules : List Rule) (n : Nat) {p : Progress} (hw : p.workshop.Faithful)
    (h : Settled s rules p.outcome.html) :
    (passes .steady s ceiling rules n p).outcome = p.outcome ∧
      (passes .steady s ceiling rules n p).passes = p.passes + min n 1 ∧
      (passes .steady s ceiling rules n p).success = p.success := by
  cases n with
  | zero => exact ⟨rfl, rfl, rfl⟩
  | succ n =>
    obtain ⟨hc, hb⟩ : (p.pass .steady s ceiling rules).changed = [] ∧
        (p.pass .steady s ceiling rules).withinBounds = p.success :=
    Pass.foldl_settled ceiling rules _ hw h
    rw [passes_of_unchanged n hc]
    exact ⟨rfl, by simp [Progress.halted], hb⟩

private theorem run_of_settled {html : Text} (hw : w.Faithful) (h : Settled s rules html) :
    (run s rules html w).outcome = ⟨html, []⟩ := by
  cases ha : admits s rules html with
  | true =>
    rw [run_of_admitted ha]
    exact (passes_of_settled rules _ hw h).1
  | false => rw [run_of_not_admitted ha]

namespace Ledger

theorem repair_fst (l : Ledger) (html : Text) :
    (l.repair s rules html w).1 = (run s rules html w).outcome := by
  unfold repair
  dsimp only
  split <;> rfl

theorem repair_recorded (l : Ledger) {html : Text} (h : admits s rules html = true) :
    ∃ e, Cache.entry? (l.repair s rules html w).2.1.history
        (recordKey (byteSize html) (run s rules html w).outcome.fixed) = some e ∧
      e.value.passes = (run s rules html w).passes ∧
      e.value.success = (run s rules html w).success := by
  simp only [repair, h, if_true, enter]
  obtain ⟨e, he, hv | ⟨r, hv⟩⟩ := Cache.entry?_upsert l.history (run s rules html w).workshop.clock
    (recordKey (byteSize html) (run s rules html w).outcome.fixed) _ _
  · exact ⟨e, he, by rw [hv], by rw [hv]⟩
  · exact ⟨e, he, by rw [hv], by rw [hv]⟩

/-- A document whose repair is on record as a success that stopped early is left as it is when it is
repaired again, whatever was repaired in between. -/
theorem repair_again {l : Ledger} {html : Text} {entry : Entry Record} (hw : w.Faithful)
    (hr : Cache.entry? (l.repair s rules html w).2.1.history
      (recordKey (byteSize html) (l.repair s rules html w).1.fixed) = some entry)
    (hp : entry.value.passes < s.repair.maxPasses) (hs : entry.value.success = true)
    (l' : Ledger) {w' : Workshop} (hw' : w'.Faithful) :
    (l'.repair s rules (l.repair s rules html w).1.html w').1 =
      ⟨(l.repair s rules html w).1.html, []⟩ := by
  rw [repair_fst] at hr
  rw [repair_fst, repair_fst]
  cases ha : admits s rules html with
  | false => rw [run_of_not_admitted ha, run_of_not_admitted ha]
  | true =>
    obtain ⟨e, he, hpe, hse⟩ := repair_recorded (w := w) l ha
    obtain rfl := Option.some.inj (hr.symm.trans he)
    refine run_of_settled hw' ?_
    rw [hpe, run_of_admitted ha] at hp
    rw [hse, run_of_admitted ha] at hs
    rw [run_of_admitted ha]
    exact passes_settled rules _ hw (by simpa using hp) hs

/-- A run that trims a text and then stops is such a success. -/
theorem repair_again_trimmed :
    let trimmer : Rule :=
      ⟨{ name := "trim", displayName := "Trim", severity := .info, category := .bestPractice,
         fixable := true }, fun _ _ => .done [], none, some fun s => .done (trim s.html)⟩
    let l := Ledger.new {} 0
    let w := Workshop.new {}
    let o := (l.repair {} [trimmer] " x".toList w).1
    o.html = "x".toList ∧ (l.repair {} [trimmer] o.html w).1 = ⟨o.html, []⟩ := by
  intro trimmer l w
  have hw : w.Faithful := Workshop.faithful_new _
  have hacc : Accepts {} trimmer " x".toList "x".toList :=
    ⟨rfl, by decide +kernel, rfl, by decide, keepsWhole_of_not_mem (by decide) (by decide)⟩
  have hset : Settled {} [trimmer] "x".toList := by
    intro r hr new hnew
    obtain rfl := List.mem_singleton.1 hr
    exact hnew.changed (Except.ok.inj hnew.repaired).symm
  let start : Progress := ⟨⟨" x".toList, []⟩, 0, true, 0, 0, w⟩
  let q := start.pass .steady {} (growthCeiling {} 2) [trimmer]
  obtain ⟨hh, hc, hb⟩ : q.html = "x".toList ∧ q.changed = ["trim"] ∧ q.withinBounds = true :=
    Progress.pass_accepted (c := .steady) (p := start) hw hacc (by decide +kernel)
  have ha : admits {} [trimmer] " x".toList = true := by decide +kernel
  have hrun : run {} [trimmer] " x".toList w = passes .steady {} _ [trimmer] 4 (start.advanced q) :=
    (run_of_admitted ha).trans (passes_of_changed 4 (ne_of_eq_of_ne hc (List.cons_ne_nil _ _)))
  have hq : q.workshop.Faithful := Progress.pass_faithful _ _ _ _ hw
  clear_value q
  have hstill : Settled {} [trimmer] (start.advanced q).outcome.html := by
    rw [Progress.advanced_html, hh]
    exact hset
  obtain ⟨ho, hn, hs⟩ := passes_of_settled (p := start.advanced q) [trimmer] 4 hq hstill
  rw [← hrun] at ho hn hs
  obtain ⟨e, he, hpe, hse⟩ := repair_recorded (w := w) l ha
  rw [← repair_fst l] at he
  have hpasses : e.value.passes < 5 := by
    rw [hpe, hn]
    exact (by decide : 2 < 5)
  refine ⟨?_, repair_again hw he hpasses (hse.trans (hs.trans hb)) l hw⟩
  rw [repair_fst, ho, Progress.advanced_html, hh]

end Ledger
end MailMarkup.Repair
