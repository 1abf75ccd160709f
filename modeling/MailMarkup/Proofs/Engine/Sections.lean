import MailMarkup.Proofs.Engine.HistoryIndependence

/-!
# The sections of an engine's work

One engine serves many tasks at a time. A cache is used under its lock only, and a counter goes up
at one stroke; between two such sections of one task others may have theirs. The operations that a
batch of files uses are taken apart here into their sections. With nothing in between they are the
operations (`run_validating`, `run_repairing`, `run_comparing`), and whatever comes in between, they
give one result (`Work.Settled`): a section is answered as the engine's settings say, but that a
tree may be kept or not.
-/
namespace MailMarkup

namespace Repair

/-- A pass under way, apart from its workshop and its calls. -/
structure Draft where
  html : Text
  changed : List String
  withinBounds : Bool
  unsound : Nat

/-- A run under way or done, apart from its workshop and its calls. -/
structure Account where
  outcome : Outcome
  passes : Nat
  success : Bool
  unsound : Nat

def Pass.draft (p : Pass) : Draft := ⟨p.html, p.changed, p.withinBounds, p.unsound⟩

def Progress.account (p : Progress) : Account := ⟨p.outcome, p.passes, p.success, p.unsound⟩

def Draft.take (ceiling : Nat) (r : Rule) (d : Draft) : Verdict → Draft
  | .skipped => d
  | .unsound => { d with unsound := d.unsound + 1 }
  | .accepted new =>
    if ceiling < Text.byteSize new then { d with withinBounds := false }
    else { d with html := new, changed := r.name :: d.changed }

def Account.halted (a : Account) (d : Draft) : Account :=
  ⟨a.outcome, a.passes + 1, d.withinBounds, d.unsound⟩

def Account.advanced (a : Account) (d : Draft) : Account :=
  { a.halted d with outcome := ⟨d.html, addNew a.outcome.fixed d.changed.reverse⟩ }

end Repair

namespace Engine
open Repair

/-- What is done to a shared engine at one stroke. -/
inductive Section where
  /-- A pattern is taken from its cache, or compiled and stored. -/
  | pattern (key : PatternKey)
  /-- A tree is looked for in its cache. -/
  | lookUp (html : Text)
  /-- A tree that was read outside the lock is stored. -/
  | keep (html : Text) (forest : Forest)
  /-- A task sees to the cache of patterns. -/
  | tend (u : Upkeep)
  | count (f : Counters → Counters)
  | beginRun
  | endRun (size : Nat) (a : Account)

namespace Section

def Answer : Section → Type
  | pattern _ => Except Failure Pattern
  | lookUp _ => Option Forest
  | _ => Unit

def apply (e : Engine) : (q : Section) → q.Answer × Engine
  | pattern key => ((e.workshop.fetch key).1, { e with workshop := (e.workshop.fetch key).2 })
  | lookUp html =>
    let r := e.trees.get e.workshop.clock html
    (r.1, { e with trees := r.2, workshop := e.workshop.advance })
  | keep html forest =>
    ((), { e with
      trees := e.trees.insert e.workshop.clock html forest, workshop := e.workshop.advance })
  | tend u => ((), { e with workshop := e.workshop.tend u })
  | count f => ((), { e with counters := f e.counters })
  | beginRun => ((), { e with ledger := { e.ledger with runs := e.ledger.runs + 1 } })
  | endRun size a =>
    let p : Progress := { a with workshop := e.workshop }
    ((), { e with
      ledger :=
        { e.ledger.enter e.workshop.clock size p with rejected := e.ledger.rejected + a.unsound }
      workshop := e.workshop.advance })

end Section

/-- A use of an engine: its sections, each chosen by what the ones before it answered. -/
inductive Work (α : Type) where
  | done (a : α)
  | step (q : Section) (next : q.Answer → Work α)

namespace Work
variable {α β : Type}

def bind : Work α → (α → Work β) → Work β
  | done a, f => f a
  | step q next, f => step q fun x => (next x).bind f

instance : Monad Work where
  pure := done
  bind := bind

/-- All sections with nothing in between. -/
def run : Work α → Engine → α × Engine
  | done a, e => (a, e)
  | step q next, e => (next (q.apply e).1).run (q.apply e).2

@[simp] theorem run_pure (a : α) (e : Engine) : (pure a : Work α).run e = (a, e) := rfl

@[simp] theorem run_step (q : Section) (next : q.Answer → Work α) (e : Engine) :
    (step q next).run e = (next (q.apply e).1).run (q.apply e).2 := rfl

@[simp] theorem run_bind (w : Work α) (f : α → Work β) (e : Engine) :
    (w >>= f).run e = (f (w.run e).1).run (w.run e).2 := by
  induction w generalizing e with
  | done a => rfl
  | step q next ih => exact ih (q.apply e).1 (q.apply e).2

/-- What every section keeps is kept by the whole. -/
theorem run_keeps {P : Engine → Prop} (hP : ∀ e q, P e → P (Section.apply e q).2) (w : Work α)
    {e : Engine} (h : P e) : P (w.run e).2 := by
  induction w generalizing e with
  | done a => exact h
  | step q next ih => exact ih _ (hP e q h)

end Work

end Engine

/-- A task's questions to an index are its own business; its patterns are shared. -/
def Task.work {α : Type} : Task α → Index → Engine.Work (Except Failure α × Index)
  | .done a, ix => .done (.ok a, ix)
  | .fail f, ix => .done (.error f, ix)
  | .pattern key next, ix => .step (.pattern key) fun
    | .ok p => (next p).work ix
    | .error f => .done (.error f, ix)
  | .find q next, ix => (next (ix.find q).1).work (ix.find q).2
  | .tend u next, ix => .step (.tend u) fun _ => next.work ix

def Task.workAlone {α : Type} (t : Task α) : Engine.Work (Except Failure α) := do
  let r ← t.work (.new [] 1)
  return r.1

namespace Engine
open Repair

def attempting (s : Settings) (r : Rule) (html : Text) : Work Verdict :=
  if !r.info.fixable || !s.enables r.info then return .skipped
  else do
    match ← (r.repaired ⟨html, s⟩).workAlone with
    | .error _ => return .skipped
    | .ok new =>
      if new == html then return .skipped
      else
        match ← (isSound html new).workAlone with
        | .ok true => return .accepted new
        | _ => return .unsound

def drafting (s : Settings) (ceiling : Nat) : List Rule → Draft → Work Draft
  | [], d => return d
  | r :: rules, d => do
    let v ← attempting s r d.html
    drafting s ceiling rules (d.take ceiling r v)

def passing (s : Settings) (ceiling : Nat) (rules : List Rule) : Nat → Account → Work Account
  | 0, a => return a
  | n + 1, a => do
    let d ← drafting s ceiling rules ⟨a.outcome.html, [], a.success, a.unsound⟩
    if d.changed.isEmpty then return a.halted d
    else passing s ceiling rules n (a.advanced d)

def repairing (s : Settings) (rules : List Rule) (html : Text) : Work Outcome :=
  .step .beginRun fun _ =>
    if admits s rules html then do
      let a ← passing s (growthCeiling s.repair (Text.byteSize html)) rules s.repair.maxPasses
        ⟨⟨html, []⟩, 0, true, 0⟩
      .step (.endRun (Text.byteSize html) a) fun _ => .done a.outcome
    else .done ⟨html, []⟩

/-- The tree of a document, which is read outside the lock. -/
def reading (l : Limits) (html : Text) : Work Forest :=
  .step (.lookUp html) fun
    | some forest => .done forest
    | none =>
      .step (.keep html (Document.read l html).nodes) fun _ => .done (Document.read l html).nodes

/-- A validation under way, apart from its workshop. -/
structure Sheet where
  found : List (List Finding) := []
  failures : Nat := 0
  index : Index

def Survey.sheet (v : Survey) : Sheet := ⟨v.found, v.failures, v.index⟩

def Sheet.add (s : Settings) (r : Rule) (v : Sheet)
    (x : Except Failure (List Finding) × Index) : Sheet where
  found := settle s r.info x.1 :: v.found
  failures := v.failures + match x.1 with
    | .ok _ => 0
    | .error _ => 1
  index := x.2

def checking (s : Settings) (html : Text) (forest : Forest) (r : Rule) (ix : Index) :
    Work (Except Failure (List Finding) × Index) :=
  match r.treeCheck with
  | some check => (check ⟨html, s⟩ forest r.info).work ix
  | none => do
    let x ← (r.check ⟨html, s⟩ r.info).workAlone
    return (x, ix)

def surveying (s : Settings) (html : Text) (forest : Forest) : List Rule → Sheet → Work Sheet
  | [], v => return v
  | r :: rules, v =>
    if s.enables r.info then do
      let x ← checking s html forest r v.index
      surveying s html forest rules (v.add s r x)
    else surveying s html forest rules v

def validating (s : Settings) (g : Registry) (html : Text) : Work Report :=
  .step (.count fun c => { c with validations := c.validations + 1 }) fun _ =>
    match rejection? s html with
    | some f =>
      .step (.count fun c => { c with rejectedInputs := c.rejectedInputs + 1 }) fun _ =>
        .done (.rejected f)
    | none => do
      let forest ← reading s.limits html
      let v ← surveying s html forest g.rules { index := .new forest s.cache.maxResults }
      .step (.count fun c => { c with ruleFailures := c.ruleFailures + v.failures }) fun _ =>
        .done (.ofFindings v.found.reverse.flatten s.scoring s.strict)

def comparing (s : Settings) (html : Text) : Work (Result CompatibilityReport) := do
  match ← (Compatibility.report ⟨html, s⟩).workAlone with
  | .ok report => return .ok report
  | .error f => return .error (.rule f)

/-- An operation's sections, unless the engine has been disposed of. -/
def unlessDisposed {α : Type} (disposed : Bool) (w : Work (Result α)) : Work (Result α) :=
  if disposed then return .error .disposed else w

section run
variable {α : Type} {s : Settings} {html : Text}

theorem run_work (t : Task α) (ix : Index) (e : Engine) :
    (t.work ix).run e = (((t.run ix e.workshop).1, (t.run ix e.workshop).2.1),
      { e with workshop := (t.run ix e.workshop).2.2 }) := by
  induction t generalizing ix e with
  | done a => rfl
  | fail f => rfl
  | pattern key next ih =>
    simp only [Task.work, Task.run, Work.run_step, Section.apply]
    rcases e.workshop.fetch key with ⟨_ | p, w⟩
    · rfl
    · exact ih p ix { e with workshop := w }
  | find q next ih => exact ih _ _ e
  | tend u next ih => exact ih ix { e with workshop := e.workshop.tend u }

theorem run_workAlone (t : Task α) (e : Engine) :
    t.workAlone.run e =
      ((t.runAlone e.workshop).1, { e with workshop := (t.runAlone e.workshop).2 }) := by
  simp [Task.workAlone, Task.runAlone, run_work]

private theorem run_attempting (r : Rule) (e : Engine) :
    (attempting s r html).run e = ((attempt s r html e.workshop).1,
      { e with workshop := (attempt s r html e.workshop).2 }) := by
  unfold attempting attempt
  split
  · rfl
  · simp only [Work.run_bind, run_workAlone]
    rcases (r.repaired ⟨html, s⟩).runAlone e.workshop with ⟨_ | new, w⟩
    · rfl
    · dsimp only
      split
      · rfl
      · simp only [Work.run_bind, run_workAlone]
        rcases (isSound html new).runAlone w with ⟨_ | (_ | _), w'⟩ <;> rfl

private theorem draft_apply (ceiling : Nat) (r : Rule) (p : Pass) :
    (p.draft.take ceiling r (attempt s r p.html p.workshop).1) =
        (Pass.apply .steady s ceiling p r).draft ∧
      (attempt s r p.html p.workshop).2 = (Pass.apply .steady s ceiling p r).workshop := by
  unfold Pass.apply
  simp only [Conduct.steady]
  rcases attempt s r p.html p.workshop with ⟨_ | _ | new, w⟩
  · exact ⟨rfl, rfl⟩
  · exact ⟨rfl, rfl⟩
  · simp only [Draft.take]
    split <;> exact ⟨rfl, rfl⟩

private theorem run_drafting (ceiling : Nat) (rules : List Rule) (p : Pass) (e : Engine) :
    (drafting s ceiling rules p.draft).run { e with workshop := p.workshop } =
      ((rules.foldl (Pass.apply .steady s ceiling) p).draft,
        { e with workshop := (rules.foldl (Pass.apply .steady s ceiling) p).workshop }) := by
  induction rules generalizing p with
  | nil => rfl
  | cons r rules ih =>
    obtain ⟨hd, hw⟩ := draft_apply (s := s) ceiling r p
    simp only [drafting, Work.run_bind, run_attempting]
    rw [show p.draft.html = p.html from rfl, hd, hw]
    exact ih (Pass.apply .steady s ceiling p r)

private theorem run_passing (ceiling : Nat) (rules : List Rule) (n : Nat) (p : Progress)
    (e : Engine) :
    (passing s ceiling rules n p.account).run { e with workshop := p.workshop } =
      ((passes .steady s ceiling rules n p).account,
        { e with workshop := (passes .steady s ceiling rules n p).workshop }) := by
  induction n generalizing p with
  | zero => rfl
  | succ n ih =>
    have hd : (drafting s ceiling rules
          ⟨p.account.outcome.html, [], p.account.success, p.account.unsound⟩).run
          { e with workshop := p.workshop } =
        ((p.pass .steady s ceiling rules).draft,
          { e with workshop := (p.pass .steady s ceiling rules).workshop }) :=
      run_drafting ceiling rules p.start e
    rw [passing, Work.run_bind, hd]
    by_cases h : (p.pass .steady s ceiling rules).changed = []
    · have he : (p.pass .steady s ceiling rules).draft.changed.isEmpty = true :=
        List.isEmpty_iff.2 h
      rw [passes_of_unchanged n h]
      simp only [he, if_true]
      rfl
    · have he : (p.pass .steady s ceiling rules).draft.changed.isEmpty = false :=
        List.isEmpty_eq_false_iff.2 h
      rw [passes_of_changed n h, ← ih]
      simp only [he, Bool.false_eq_true, if_false]
      rfl

private theorem run_repairing (rules : List Rule) (e : Engine) :
    (repairing s rules html).run e =
      ((e.ledger.repair s rules html e.workshop).1,
        { e with
          ledger := (e.ledger.repair s rules html e.workshop).2.1
          workshop := (e.ledger.repair s rules html e.workshop).2.2 }) := by
  rw [repairing, Work.run_step]
  simp only [Section.apply]
  cases ha : admits s rules html with
  | false =>
    simp only [Ledger.repair, ha, run_of_not_admitted ha]
    rfl
  | true =>
    have hp := run_passing (s := s) (growthCeiling s.repair (Text.byteSize html)) rules
      s.repair.maxPasses ⟨⟨html, []⟩, 0, true, 0, 0, e.workshop⟩
      { e with ledger := { e.ledger with runs := e.ledger.runs + 1 } }
    simp only [Ledger.repair, ha, run_of_admitted ha, if_true, Work.run_bind]
    rw [show (Account.mk ⟨html, []⟩ 0 true 0) =
      (Progress.mk ⟨html, []⟩ 0 true 0 0 e.workshop).account from rfl]
    exact hp ▸ rfl

private theorem run_reading (html : Text) (e : Engine) :
    (reading e.settings.limits html).run e = e.treeOf html := by
  simp only [reading, treeOf, Work.run_step, Section.apply]
  rcases e.trees.get e.workshop.clock html with ⟨_ | forest, trees⟩ <;> rfl

private theorem treeOf_eq (e : Engine) (html : Text) :
    ∃ forest trees workshop, e.treeOf html = (forest, { e with trees, workshop }) := by
  unfold treeOf
  split <;> exact ⟨_, _, _, rfl⟩

private theorem sheet_apply (html : Text) (forest : Forest) (v : Survey) (r : Rule) (e : Engine)
    (h : s.enables r.info = true) :
    let x := (checking s html forest r v.sheet.index).run { e with workshop := v.workshop }
    v.sheet.add s r x.1 = (Survey.apply ⟨html, s⟩ forest v r).sheet ∧
      x.2 = { e with workshop := (Survey.apply ⟨html, s⟩ forest v r).workshop } := by
  unfold checking Survey.apply
  simp only [h, if_true]
  cases r.treeCheck with
  | some check =>
    simp only [run_work]
    exact ⟨rfl, rfl⟩
  | none =>
    simp only [Work.run_bind, run_workAlone]
    exact ⟨rfl, rfl⟩

private theorem run_surveying (html : Text) (forest : Forest) (rules : List Rule) (v : Survey)
    (e : Engine) :
    (surveying s html forest rules v.sheet).run { e with workshop := v.workshop } =
      ((rules.foldl (Survey.apply ⟨html, s⟩ forest) v).sheet,
        { e with workshop := (rules.foldl (Survey.apply ⟨html, s⟩ forest) v).workshop }) := by
  induction rules generalizing v with
  | nil => rfl
  | cons r rules ih =>
    rw [surveying, List.foldl_cons, ← ih]
    cases h : s.enables r.info with
    | true =>
      obtain ⟨hs, he⟩ := sheet_apply html forest v r e h
      simp only [if_true, Work.run_bind, hs, he]
    | false => simp [Survey.apply, h]

theorem run_unlessDisposed (e : Engine) (w : Work (Result α)) :
    (unlessDisposed e.disposed w).run e = e.whenActive fun _ => w.run e := by
  unfold unlessDisposed whenActive
  split <;> rfl

/-- A validation is its sections with nothing in between. -/
theorem run_validating (e : Engine) (html : Text) :
    (unlessDisposed e.disposed do return .ok (← validating e.settings e.registry html)).run e =
      e.validate html := by
  rw [run_unlessDisposed, validate]
  congr 1
  funext _
  simp only [Work.run_bind, Work.run_pure, validating, Work.run_step, Section.apply,
    Conduct.acting_steady]
  cases rejection? e.settings html with
  | some f => rfl
  | none =>
    simp only [Work.run_bind, Work.run_step, Section.apply]
    rw [run_reading html { e with
      counters := { e.counters with validations := e.counters.validations + 1 } }]
    obtain ⟨forest, trees, w, ht⟩ := treeOf_eq
      { e with counters := { e.counters with validations := e.counters.validations + 1 } } html
    have hv := run_surveying (s := e.settings) html forest e.registry.rules
      { index := .new forest e.settings.cache.maxResults, workshop := w }
      { e with
        counters := { e.counters with validations := e.counters.validations + 1 }, trees }
    rw [ht]
    exact hv ▸ rfl

theorem run_repairWith (e : Engine) (html : Text) (include_ : Rule → Bool) :
    (unlessDisposed e.disposed do
      return .ok (← repairing e.settings (sequence e.registry e.settings include_) html)).run e =
        e.repairWith html include_ := by
  rw [run_unlessDisposed]
  simp only [Work.run_bind, Work.run_pure, run_repairing]
  rfl

theorem run_comparing (e : Engine) (html : Text) :
    (unlessDisposed e.disposed (comparing e.settings html)).run e = e.compatibility html := by
  rw [run_unlessDisposed, compatibility]
  congr 1
  funext _
  rw [comparing, Work.run_bind, run_workAlone]
  rcases (Compatibility.report ⟨html, e.settings⟩).runAlone e.workshop with ⟨_ | report, w⟩ <;> rfl

end run

namespace Section

/-- The answers a section can have as long as the engine keeps what its settings call for. -/
def Allows (l : Limits) : (q : Section) → q.Answer → Prop
  | pattern key, x => x = Task.compile key
  | lookUp html, x => x = none ∨ x = some (Document.read l html).nodes
  | _, _ => True

/-- What a section stores is what the settings call for. -/
def Honest (l : Limits) : Section → Prop
  | keep html forest => (Document.read l html).nodes = forest
  | _ => True

variable {e : Engine}

theorem allows_apply (h : e.Faithful) (q : Section) :
    q.Allows e.settings.limits (q.apply e).1 := by
  cases q with
  | pattern key => exact h.workshop.fetch_fst key
  | lookUp html =>
    cases hg : (e.trees.get e.workshop.clock html).1 with
    | none => exact .inl hg
    | some forest => exact .inr (hg.trans (congrArg some (h.trees.of_get hg).symm))
  | _ => trivial

theorem faithful_apply (h : e.Faithful) {q : Section} (hq : q.Honest e.settings.limits) :
    (q.apply e).2.Faithful := by
  cases q with
  | pattern key => exact ⟨h.trees, h.workshop.fetch_snd key⟩
  | lookUp html => exact ⟨h.trees.get _ html, h.workshop.advance⟩
  | keep html forest => exact ⟨h.trees.insert _ hq, h.workshop.advance⟩
  | tend u => exact ⟨h.trees, h.workshop.tend u⟩
  | count f => exact h.withCounters _
  | beginRun => exact ⟨h.trees, h.workshop⟩
  | endRun size a => exact ⟨h.trees, h.workshop.advance⟩

end Section

namespace Work
variable {α β : Type} {l : Limits} {w : Work α} {f : α → Work β} {a : α} {b : β}

/-- The work ends with `a`, whatever else is done to the engine between its sections. -/
def Gives (l : Limits) (a : α) : Work α → Prop
  | done b => b = a
  | step q next => q.Honest l ∧ ∀ x, q.Allows l x → (next x).Gives l a

/-- The result does not depend on what is done between the sections. -/
def Settled (l : Limits) (w : Work α) : Prop := ∃ a, w.Gives l a

theorem Gives.bind (h : w.Gives l a) (hf : (f a).Gives l b) : (w >>= f).Gives l b := by
  induction w with
  | done a' =>
    obtain rfl : a' = a := h
    exact hf
  | step q next ih => exact ⟨h.1, fun x hx => ih x (h.2 x hx)⟩

theorem Gives.run {e : Engine} (h : w.Gives e.settings.limits a) (he : e.Faithful) :
    (w.run e).1 = a ∧ (w.run e).2.Faithful := by
  induction w generalizing e with
  | done a' => exact ⟨h, he⟩
  | step q next ih =>
    have hs : (q.apply e).2.settings = e.settings := by cases q <;> rfl
    exact ih _ (hs ▸ h.2 _ (q.allows_apply he)) (Section.faithful_apply he h.1)

theorem Settled.pure (a : α) : (pure a : Work α).Settled l := ⟨a, rfl⟩

theorem Settled.bind (h : w.Settled l) (hf : ∀ a, (f a).Settled l) : (w >>= f).Settled l := by
  obtain ⟨a, h⟩ := h
  obtain ⟨b, hb⟩ := hf a
  exact ⟨b, h.bind hb⟩

theorem Settled.step {q : Section} {next : Work α} (hq : q.Honest l) (h : next.Settled l) :
    (Work.step q fun _ => next).Settled l := by
  obtain ⟨a, h⟩ := h
  exact ⟨a, hq, fun _ _ => h⟩

end Work

section settled
variable {α : Type} {l : Limits} {s : Settings} {html : Text}

theorem settled_work (t : Task α) (ix : Index) : (t.work ix).Settled l := by
  induction t generalizing ix with
  | done a => exact .pure _
  | fail f => exact .pure _
  | pattern key next ih =>
    rw [Task.work]
    cases hk : Task.compile key with
    | ok p =>
      obtain ⟨a, h⟩ := ih p ix
      exact ⟨a, trivial, fun x hx => by rw [show x = .ok p from Eq.trans hx hk]; exact h⟩
    | error f =>
      exact ⟨_, trivial, fun x hx => by rw [show x = .error f from Eq.trans hx hk]; rfl⟩
  | find q next ih => exact ih _ _
  | tend u next ih => exact .step trivial (ih ix)

theorem settled_workAlone (t : Task α) : t.workAlone.Settled l :=
  (settled_work t _).bind fun _ => .pure _

private theorem settled_attempting (r : Rule) : (attempting s r html).Settled l := by
  unfold attempting
  split
  · exact .pure _
  · refine (settled_workAlone _).bind fun x => ?_
    split
    · exact .pure _
    · split
      · exact .pure _
      · refine (settled_workAlone _).bind fun x => ?_
        split <;> exact .pure _

private theorem settled_drafting (ceiling : Nat) (rules : List Rule) (d : Draft) :
    (drafting s ceiling rules d).Settled l := by
  induction rules generalizing d with
  | nil => exact .pure _
  | cons r rules ih => exact (settled_attempting r).bind fun _ => ih _

private theorem settled_passing (ceiling : Nat) (rules : List Rule) (n : Nat) (a : Account) :
    (passing s ceiling rules n a).Settled l := by
  induction n generalizing a with
  | zero => exact .pure _
  | succ n ih =>
    refine (settled_drafting ceiling rules _).bind fun d => ?_
    split
    · exact .pure _
    · exact ih _

theorem settled_repairing (rules : List Rule) : (repairing s rules html).Settled l := by
  refine .step trivial ?_
  split
  · exact (settled_passing _ rules _ _).bind fun a => .step trivial (.pure _)
  · exact .pure _

/-- The tree is the same whether it was kept or has to be read. -/
theorem settled_reading : (reading l html).Settled l := by
  refine ⟨(Document.read l html).nodes, trivial, fun x hx => ?_⟩
  rcases hx with rfl | rfl
  · exact ⟨rfl, fun _ _ => rfl⟩
  · exact rfl

private theorem settled_checking (forest : Forest) (r : Rule) (ix : Index) :
    (checking s html forest r ix).Settled l := by
  unfold checking
  split
  · exact settled_work _ ix
  · exact (settled_workAlone _).bind fun _ => .pure _

private theorem settled_surveying (forest : Forest) (rules : List Rule) (v : Sheet) :
    (surveying s html forest rules v).Settled l := by
  induction rules generalizing v with
  | nil => exact .pure _
  | cons r rules ih =>
    rw [surveying]
    split
    · exact (settled_checking forest r v.index).bind fun _ => ih _
    · exact ih _

theorem settled_validating (g : Registry) : (validating s g html).Settled s.limits := by
  refine .step trivial ?_
  split
  · exact .step trivial (.pure _)
  · refine settled_reading.bind fun forest => ?_
    exact (settled_surveying forest _ _).bind fun v => .step trivial (.pure _)

theorem settled_comparing : (comparing s html).Settled l := by
  refine (settled_workAlone _).bind fun x => ?_
  split <;> exact .pure _

theorem settled_unlessDisposed {disposed : Bool} {w : Work (Result α)} (h : w.Settled l) :
    (unlessDisposed disposed w).Settled l := by
  unfold unlessDisposed
  split
  · exact .pure _
  · exact h

end settled
end Engine
end MailMarkup
