import MailMarkup.Proofs.Rule.Evaluation
import MailMarkup.Repair.Run

/-!
# How a repair is judged

What comes of one repair does not depend on the patterns that are kept, so it can be said without
them. One pass then does one of two things with each rule, as it acts at that call: it takes the
repair, or it leaves the text as it is.
-/
namespace MailMarkup.Repair
open Text

/-- The markup is no worse than before: no broken tokens, and tags no less balanced. -/
def KeepsWhole (old new : Text) : Prop :=
  isBroken new = false ∧
    ∃ p, Task.compile ⟨tagSource, .none⟩ = .ok p ∧ imbalance p new ≤ imbalance p old

private theorem isSound_evalAlone (old new : Text) :
    (isSound old new).evalAlone =
      if isBroken new then .ok false
      else
        match Task.compile ⟨tagSource, .none⟩ with
        | .ok p => .ok (decide (imbalance p new ≤ imbalance p old))
        | .error e => .error e := by
  unfold isSound
  split
  · rfl
  · simp only [Task.evalAlone_bind, Task.evalAlone_askWith]
    cases Task.compile ⟨tagSource, .none⟩ <;> rfl

theorem isSound_iff {old new : Text} :
    (isSound old new).evalAlone = .ok true ↔ KeepsWhole old new := by
  rw [isSound_evalAlone, KeepsWhole]
  cases isBroken new <;> cases Task.compile ⟨tagSource, .none⟩ <;> simp

/-- What comes of a rule's repair of a text. -/
def judge (s : Settings) (r : Rule) (html : Text) : Verdict :=
  if !r.info.fixable || !s.enables r.info then .skipped
  else
    match (r.repaired ⟨html, s⟩).evalAlone with
    | .error _ => .skipped
    | .ok new =>
      if new == html then .skipped
      else
        match (isSound html new).evalAlone with
        | .ok true => .accepted new
        | _ => .unsound

/-- A repair that is worth taking: the rule has one and is enabled, and it changes the text and
keeps the markup whole. -/
structure Accepts (s : Settings) (r : Rule) (old new : Text) : Prop where
  fixable : r.info.fixable = true
  enabled : s.enables r.info = true
  repaired : (r.repaired ⟨old, s⟩).evalAlone = .ok new
  changed : new ≠ old
  whole : KeepsWhole old new

variable {s : Settings} {r : Rule} {w : Workshop}

theorem judge_eq_accepted_iff {old new : Text} :
    judge s r old = .accepted new ↔ Accepts s r old new := by
  unfold judge
  constructor
  · intro h
    split at h
    · exact absurd h nofun
    · rename_i hr
      simp only [Bool.or_eq_true, Bool.not_eq_true', not_or, Bool.not_eq_false] at hr
      split at h
      · exact absurd h nofun
      · rename_i t ht
        split at h
        · exact absurd h nofun
        · rename_i hne
          split at h
          · rename_i hs
            obtain rfl := Verdict.accepted.inj h
            exact ⟨hr.1, hr.2, ht, by simpa using hne, isSound_iff.1 hs⟩
          · exact absurd h nofun
  · intro h
    have hs := isSound_iff.2 h.whole
    simp [h.fixable, h.enabled, h.repaired, h.changed, hs]

theorem attempt_fst (hw : w.Faithful) (html : Text) : (attempt s r html w).1 = judge s r html := by
  unfold attempt judge
  split
  · rfl
  · have hr := (r.repaired ⟨html, s⟩).runAlone_fst hw
    have hk := (r.repaired ⟨html, s⟩).runAlone_snd hw
    rw [← hr]
    rcases ha : (r.repaired ⟨html, s⟩).runAlone w with ⟨v, w'⟩
    rw [ha] at hk
    cases v with
    | error f => rfl
    | ok new =>
      have hs := (isSound html new).runAlone_fst hk
      simp only [← hs]
      split
      · rfl
      · rcases (isSound html new).runAlone w' with ⟨_ | (_ | _), w''⟩ <;> rfl

private theorem attempt_snd (hw : w.Faithful) (html : Text) : (attempt s r html w).2.Faithful := by
  unfold attempt
  split
  · exact hw
  · have hk := (r.repaired ⟨html, s⟩).runAlone_snd hw
    rcases ha : (r.repaired ⟨html, s⟩).runAlone w with ⟨_ | new, w'⟩ <;> rw [ha] at hk
    · exact hk
    · dsimp only
      split
      · exact hk
      · have hs := (isSound html new).runAlone_snd hk
        rcases hb : (isSound html new).runAlone w' with ⟨_ | (_ | _), w''⟩ <;> rw [hb] at hs <;>
          exact hs

theorem exists_attempt_accepted (hw : w.Faithful) {old new : Text} (h : Accepts s r old new) :
    ∃ w', attempt s r old w = (.accepted new, w') :=
  ⟨_, Prod.ext ((attempt_fst hw old).trans (judge_eq_accepted_iff.2 h)) rfl⟩

variable {c : Conduct} {ceiling : Nat} {p : Pass}

theorem Pass.apply_calls (c : Conduct) (s : Settings) (ceiling : Nat) (p : Pass) (r : Rule) :
    (Pass.apply c s ceiling p r).calls = p.calls + 1 := by
  unfold Pass.apply
  dsimp only
  split
  · rfl
  · rfl
  · split <;> rfl

theorem Pass.apply_faithful (c : Conduct) (s : Settings) (ceiling : Nat) (r : Rule)
    (hw : p.workshop.Faithful) : (Pass.apply c s ceiling p r).workshop.Faithful := by
  have hk := attempt_snd (s := s) (r := c.act p.calls r) hw p.html
  unfold Pass.apply
  rcases ha : attempt s (c.act p.calls r) p.html p.workshop with ⟨_ | _ | new, w'⟩ <;> rw [ha] at hk
  · exact hk
  · exact hk
  · dsimp only
    split <;> exact hk

/-- A pass takes the repair of a rule that is worth taking and not too long. -/
theorem Pass.apply_accepted (hw : p.workshop.Faithful) {new : Text}
    (h : Accepts s (c.act p.calls r) p.html new) (hc : byteSize new ≤ ceiling) :
    (Pass.apply c s ceiling p r).html = new ∧
      (Pass.apply c s ceiling p r).changed = r.name :: p.changed ∧
      (Pass.apply c s ceiling p r).withinBounds = p.withinBounds := by
  obtain ⟨w', ha⟩ := exists_attempt_accepted hw h
  unfold Pass.apply
  simp [ha, Nat.not_lt.2 hc]

/-- A repair that is worth taking but too long is dropped, and that is remembered. -/
theorem Pass.apply_tooLong (hw : p.workshop.Faithful) {new : Text}
    (h : Accepts s (c.act p.calls r) p.html new) (hc : ceiling < byteSize new) :
    (Pass.apply c s ceiling p r).html = p.html ∧
      (Pass.apply c s ceiling p r).changed = p.changed ∧
      (Pass.apply c s ceiling p r).withinBounds = false := by
  obtain ⟨w', ha⟩ := exists_attempt_accepted hw h
  unfold Pass.apply
  simp [ha, hc]

theorem Pass.apply_refused (ceiling : Nat) (hw : p.workshop.Faithful)
    (h : ∀ new, ¬ Accepts s (c.act p.calls r) p.html new) :
    (Pass.apply c s ceiling p r).html = p.html ∧
      (Pass.apply c s ceiling p r).changed = p.changed ∧
      (Pass.apply c s ceiling p r).withinBounds = p.withinBounds := by
  have hj := attempt_fst (s := s) (r := c.act p.calls r) hw p.html
  unfold Pass.apply
  rcases ha : attempt s (c.act p.calls r) p.html p.workshop with ⟨_ | _ | new, w'⟩
  · simp
  · simp
  · rw [ha] at hj
    exact absurd (judge_eq_accepted_iff.1 hj.symm) (h new)

private theorem Pass.foldl_faithful (rules : List Rule) (hw : p.workshop.Faithful) :
    (rules.foldl (Pass.apply c s ceiling) p).workshop.Faithful := by
  induction rules generalizing p with
  | nil => exact hw
  | cons r rules ih => exact ih (Pass.apply_faithful c s ceiling r hw)

theorem Pass.foldl_calls (rules : List Rule) (p : Pass) :
    (rules.foldl (Pass.apply c s ceiling) p).calls = p.calls + rules.length := by
  induction rules generalizing p with
  | nil => rfl
  | cons r rules ih =>
    rw [List.foldl_cons, ih, Pass.apply_calls, List.length_cons]
    omega

/-- A run at the beginning of a pass. -/
def Progress.start (p : Progress) : Pass :=
  ⟨p.outcome.html, [], p.success, p.unsound, p.calls, p.workshop⟩

/-- One pass of a run. -/
def Progress.pass (c : Conduct) (s : Settings) (ceiling : Nat) (rules : List Rule) (p : Progress) :
    Pass :=
  rules.foldl (Pass.apply c s ceiling) p.start

/-- A pass of one rule takes a repair that is worth taking and short enough. -/
theorem Progress.pass_accepted {p : Progress} (hw : p.workshop.Faithful) {new : Text}
    (h : Accepts s (c.act p.calls r) p.outcome.html new) (hc : byteSize new ≤ ceiling) :
    (p.pass c s ceiling [r]).html = new ∧ (p.pass c s ceiling [r]).changed = [r.name] ∧
      (p.pass c s ceiling [r]).withinBounds = p.success :=
  Pass.apply_accepted (p := p.start) hw h hc

/-- A run after a pass that changed nothing. -/
def Progress.halted (p : Progress) (q : Pass) : Progress :=
  ⟨p.outcome, p.passes + 1, q.withinBounds, q.unsound, q.calls, q.workshop⟩

/-- A run after a pass that changed something. -/
def Progress.advanced (p : Progress) (q : Pass) : Progress :=
  { p.halted q with outcome := ⟨q.html, addNew p.outcome.fixed q.changed.reverse⟩ }

@[simp]
theorem Progress.advanced_html (p : Progress) (q : Pass) :
    (p.advanced q).outcome.html = q.html := rfl

theorem passes_of_unchanged (n : Nat) {rules : List Rule} {p : Progress}
    (h : (p.pass c s ceiling rules).changed = []) :
    passes c s ceiling rules (n + 1) p = p.halted (p.pass c s ceiling rules) :=
  if_pos (List.isEmpty_iff.2 h)

theorem passes_of_changed (n : Nat) {rules : List Rule} {p : Progress}
    (h : (p.pass c s ceiling rules).changed ≠ []) :
    passes c s ceiling rules (n + 1) p =
      passes c s ceiling rules n (p.advanced (p.pass c s ceiling rules)) :=
  if_neg (mt List.isEmpty_iff.1 h)

theorem run_of_admitted {rules : List Rule} {html : Text} (h : admits s rules html = true) :
    run s rules html w c =
      passes c s (growthCeiling s.repair (byteSize html)) rules s.repair.maxPasses
        ⟨⟨html, []⟩, 0, true, 0, 0, w⟩ :=
  if_pos h

theorem run_of_not_admitted {rules : List Rule} {html : Text} (h : admits s rules html = false) :
    run s rules html w c = ⟨⟨html, []⟩, 0, true, 0, 0, w⟩ :=
  if_neg (by simp [h])

theorem Progress.pass_faithful (c : Conduct) (s : Settings) (ceiling : Nat) (rules : List Rule)
    {p : Progress} (hw : p.workshop.Faithful) :
    (p.pass c s ceiling rules).workshop.Faithful :=
  Pass.foldl_faithful (p := p.start) rules hw

private theorem passes_faithful (rules : List Rule) (n : Nat) {p : Progress}
    (hw : p.workshop.Faithful) :
    (passes c s ceiling rules n p).workshop.Faithful := by
  induction n generalizing p with
  | zero => exact hw
  | succ n ih =>
    have hq := Progress.pass_faithful c s ceiling rules hw
    by_cases hc : (p.pass c s ceiling rules).changed = []
    · rw [passes_of_unchanged n hc]
      exact hq
    · rw [passes_of_changed n hc]
      exact ih hq

theorem run_faithful (c : Conduct) (rules : List Rule) (html : Text) (hw : w.Faithful) :
    (run s rules html w c).workshop.Faithful := by
  cases ha : admits s rules html with
  | true =>
    rw [run_of_admitted ha]
    exact passes_faithful rules _ hw
  | false =>
    rw [run_of_not_admitted ha]
    exact hw

end MailMarkup.Repair
