import Mathlib.Data.Finset.Lattice.Fold
import Mathlib.Data.Fintype.Basic
import Mathlib.Order.Interval.Finset.Nat
import MailMarkup.Batch.Run
import MailMarkup.Proofs.Engine.Sections

/-!
# Files worked on at the same time

The work on several files shares one engine and one file tree. A worker reads or writes a file at
one stroke, and goes through the sections of an engine's operation one by one; between any two of
these the other workers may go on, time may pass, and caches may be swept. Whoever is let on when,
as long as nobody is kept waiting for ever, each worker ends as if it had been alone with a fresh
engine (`Crew.finishes`), provided that what the others write does not get in its way
(`Undisturbed`).
-/
namespace MailMarkup

namespace Engine

/-- Engines that may differ in what they remember and have counted, but in nothing else. -/
structure Alike (e e' : Engine) : Prop where
  settings : e.settings = e'.settings
  registry : e.registry = e'.registry
  disposed : e.disposed = e'.disposed

variable {e e' e'' : Engine}

theorem Alike.refl (e : Engine) : Alike e e := ⟨rfl, rfl, rfl⟩

theorem Alike.symm (h : Alike e e') : Alike e' e :=
  ⟨h.settings.symm, h.registry.symm, h.disposed.symm⟩

theorem Alike.trans (h : Alike e e') (h' : Alike e' e'') : Alike e e'' :=
  ⟨h.settings.trans h'.settings, h.registry.trans h'.registry, h.disposed.trans h'.disposed⟩

theorem alike_section (e : Engine) (q : Section) : Alike e (q.apply e).2 := by
  cases q <;> exact ⟨rfl, rfl, rfl⟩

theorem alike_run {α : Type} (w : Work α) (e : Engine) : Alike e (w.run e).2 :=
  w.run_keeps (fun _ q h => h.trans (alike_section _ q)) (.refl e)

/-- The engine as it was when it was new, but for its rules and settings. -/
def renewed (e : Engine) : Engine :=
  { build e.settings with registry := e.registry, disposed := e.disposed }

theorem faithful_renewed (e : Engine) : e.renewed.Faithful :=
  ⟨(faithful_build e.settings).trees, (faithful_build e.settings).workshop⟩

theorem alike_renewed (e : Engine) : Alike e e.renewed := ⟨rfl, rfl, rfl⟩

end Engine

namespace Batch
open Engine

/-- An operation of the engine as a step of the work on a file. -/
def usingEngine {α : Type} (w : Work (Result α)) (next : α → Stage) : Work Stage := do
  match ← w with
  | .ok a => return next a
  | .error err => return .done (.error err)

/-- The sections of the step that comes next, if it is one with the engine. -/
def calls (e : Engine) (o : BatchOptions) (p : Path) : Stage → Option (Work Stage)
  | .loaded html =>
    if o.fix then
      let rules := Repair.sequence e.registry e.settings fun _ => true
      some (usingEngine
        (unlessDisposed e.disposed do return .ok (← repairing e.settings rules html)) .repaired)
    else none
  | .ready html fixed writtenTo =>
    some (usingEngine
      (unlessDisposed e.disposed do return .ok (← validating e.settings e.registry html))
      fun report =>
        let status := FileStatus.ofReport report
        .checked html { path := p, status, report := some report, fixed, writtenTo })
  | .checked html r =>
    if o.compat then
      some (usingEngine (unlessDisposed e.disposed (comparing e.settings html)) fun c =>
        .done (.ok { r with compatibility := some c }))
    else none
  | _ => none

section calls
variable {α : Type} {e e' : Engine} {o : BatchOptions} {p : Path} {s s' : Stage} {work : Work Stage}

theorem run_usingEngine {w : Work (Result α)} {f : Engine → Result α × Engine}
    (h : w.run e = f e) (next : α → Stage) (files : FileTree) :
    withEngine ⟨e, files⟩ f next =
      (((usingEngine w next).run e).1, ⟨((usingEngine w next).run e).2, files⟩) := by
  rw [usingEngine, Work.run_bind, withEngine, h]
  rcases f e with ⟨_ | a, e'⟩ <;> rfl

theorem step_of_calls (h : calls e o p s = some work) (files : FileTree) :
    step o p s ⟨e, files⟩ = ((work.run e).1, ⟨(work.run e).2, files⟩) := by
  cases s with
  | loaded html =>
    simp only [calls, Option.ite_none_right_eq_some, Option.some.injEq] at h
    obtain ⟨hf, rfl⟩ := h
    rw [step, if_pos hf]
    exact run_usingEngine (run_repairWith e html _) _ files
  | ready html fixed writtenTo =>
    obtain rfl := Option.some.inj h
    rw [step]
    exact run_usingEngine (run_validating e html) _ files
  | checked html r =>
    simp only [calls, Option.ite_none_right_eq_some, Option.some.injEq] at h
    obtain ⟨hc, rfl⟩ := h
    rw [step, if_pos hc]
    exact run_usingEngine (run_comparing e html) _ files
  | unread => exact absurd h (Option.some_ne_none _).symm
  | repaired outcome => exact absurd h (Option.some_ne_none _).symm
  | done r => exact absurd h (Option.some_ne_none _).symm

theorem calls_congr (h : Alike e e') (o : BatchOptions) (p : Path) (s : Stage) :
    calls e o p s = calls e' o p s := by
  cases s <;> simp only [calls, h.settings, h.registry, h.disposed]

theorem settled_usingEngine {w : Work (Result α)} {l : Limits} (h : w.Settled l)
    (next : α → Stage) : (usingEngine w next).Settled l := by
  apply h.bind
  intro r
  cases r with
  | ok a => exact .pure _
  | error err => exact .pure _

theorem settled_calls (h : calls e o p s = some work) : work.Settled e.settings.limits := by
  cases s with
  | loaded html =>
    simp only [calls, Option.ite_none_right_eq_some, Option.some.injEq] at h
    obtain ⟨-, rfl⟩ := h
    exact settled_usingEngine
      (settled_unlessDisposed ((settled_repairing _).bind fun _ => .pure _)) _
  | ready html fixed writtenTo =>
    obtain rfl := Option.some.inj h
    exact settled_usingEngine
      (settled_unlessDisposed ((settled_validating _).bind fun _ => .pure _)) _
  | checked html r =>
    simp only [calls, Option.ite_none_right_eq_some, Option.some.injEq] at h
    obtain ⟨-, rfl⟩ := h
    exact settled_usingEngine (settled_unlessDisposed settled_comparing) _
  | unread => exact absurd h nofun
  | repaired outcome => exact absurd h nofun
  | done r => exact absurd h nofun

end calls

/-- Nothing is written for the file any more. -/
def Stage.filed : Stage → Bool
  | .ready _ _ _ | .checked _ _ | .done _ => true
  | _ => false

section alone
variable {e e' : Engine} {o : BatchOptions} {p : Path} {s : Stage} {work : Work Stage}
  {w w' : World}

theorem filed_step (h : s.filed = true) (o : BatchOptions) (p : Path) (w : World) :
    (step o p s w).1.filed = true := by
  cases s with
  | unread => exact absurd h nofun
  | loaded html => exact absurd h nofun
  | repaired outcome => exact absurd h nofun
  | ready html fixed writtenTo =>
    rw [step, withEngine]
    split <;> rfl
  | checked html r =>
    rw [step, withEngine]
    split
    · split <;> rfl
    · rfl
  | done r => rfl

theorem step_of_filed (h : s.filed = true) (e : Engine) (files files' : FileTree) :
    step o p s ⟨e, files⟩ =
      ((step o p s ⟨e, files'⟩).1, ⟨(step o p s ⟨e, files'⟩).2.engine, files⟩) := by
  cases s with
  | unread => exact absurd h nofun
  | loaded html => exact absurd h nofun
  | repaired outcome => exact absurd h nofun
  | ready html fixed writtenTo =>
    simp only [step, withEngine]
    split <;> rfl
  | checked html r =>
    simp only [step, withEngine]
    split
    · split <;> rfl
    · rfl
  | done r => rfl

private theorem currentSettings_congr (h : Alike e e') :
    e.currentSettings.1 = e'.currentSettings.1 := by
  simp only [currentSettings, whenActive, h.settings, h.disposed]
  split <;> rfl

theorem step_of_no_calls (h : Alike e e') (hc : calls e o p s = none) (files : FileTree) :
    step o p s ⟨e, files⟩ =
      ((step o p s ⟨e', files⟩).1, ⟨e, (step o p s ⟨e', files⟩).2.files⟩) := by
  cases s with
  | unread =>
    simp only [step, currentSettings_congr h]
    split
    · rfl
    · split <;> rfl
  | loaded html =>
    have hf : ¬o.fix = true := by
      intro hf
      simp [calls, hf] at hc
    simp [step, hf]
  | repaired outcome =>
    simp only [step]
    split
    · split <;> rfl
    · rfl
  | ready html fixed writtenTo => exact absurd hc (Option.some_ne_none _)
  | checked html r =>
    have hn : ¬o.compat = true := by
      intro hn
      simp [calls, hn] at hc
    simp [step, hn]
  | done r => rfl

/-- Every step keeps the engine faithful and its settings and rules as they are. -/
theorem step_keeps (h : e.Faithful) (o : BatchOptions) (p : Path) (s : Stage) (files : FileTree) :
    (step o p s ⟨e, files⟩).2.engine.Faithful ∧ Alike e (step o p s ⟨e, files⟩).2.engine := by
  cases hc : calls e o p s with
  | some work =>
    obtain ⟨s', hs⟩ := settled_calls hc
    rw [step_of_calls hc]
    exact ⟨(hs.run h).2, alike_run work e⟩
  | none =>
    rw [step_of_no_calls (.refl e) hc]
    exact ⟨h, .refl e⟩

/-- What the engine remembers does not show in a step. -/
theorem step_congr (h : e.Faithful) (h' : e'.Faithful) (ha : Alike e e') (files : FileTree) :
    (step o p s ⟨e, files⟩).1 = (step o p s ⟨e', files⟩).1 ∧
      (step o p s ⟨e, files⟩).2.files = (step o p s ⟨e', files⟩).2.files := by
  cases hc : calls e o p s with
  | some work =>
    obtain ⟨s', hs⟩ := settled_calls hc
    have hs' : work.Gives e'.settings.limits s' := ha.settings ▸ hs
    have hc' : calls e' o p s = some work := calls_congr ha o p s ▸ hc
    rw [step_of_calls hc, step_of_calls hc']
    exact ⟨(hs.run h).1.trans (hs'.run h').1.symm, rfl⟩
  | none =>
    rw [step_of_no_calls ha hc]
    exact ⟨rfl, rfl⟩

/-- Two worlds in which the work on a file goes on in the same way. -/
structure Matches (s : Stage) (w w' : World) : Prop where
  left : w.engine.Faithful
  right : w'.engine.Faithful
  alike : Alike w.engine w'.engine
  files : s.filed = true ∨ w.files = w'.files

theorem Matches.step (h : Matches s w w') (o : BatchOptions) (p : Path) :
    (Batch.step o p s w).1 = (Batch.step o p s w').1 ∧
      Matches (Batch.step o p s w).1 (Batch.step o p s w).2 (Batch.step o p s w').2 := by
  obtain ⟨e, files⟩ := w
  obtain ⟨e', files'⟩ := w'
  obtain ⟨hl, hr, ha, hf⟩ := h
  obtain ⟨hl', hal⟩ := step_keeps hl o p s files
  obtain ⟨hr', har⟩ := step_keeps hr o p s files'
  obtain ⟨hs, hfiles⟩ := step_congr (o := o) (p := p) (s := s) hl hr ha files
  have halike := hal.symm.trans (ha.trans har)
  rcases hf with hf | hf
  · have hs' : (Batch.step o p s ⟨e', files'⟩).1 = (Batch.step o p s ⟨e', files⟩).1 := by
      rw [step_of_filed hf e' files' files]
    exact ⟨hs.trans hs'.symm, hl', hr', halike, .inl (filed_step hf o p _)⟩
  · obtain rfl : files = files' := hf
    exact ⟨hs, hl', hr', halike, .inr hfiles⟩

theorem Stage.eq_done {r : Except EngineError FileResult} (h : s.result? = some r) :
    s = .done r := by
  cases s with
  | done r' => exact congrArg Stage.done (Option.some.inj h)
  | _ => exact absurd h nofun

theorem rank_step_lt (o : BatchOptions) (p : Path) (h : s.result? = none) (w : World) :
    (step o p s w).1.rank < s.rank := by
  have hr := step_rank o p s w
  have hp := Stage.rank_pos h
  omega

theorem finish_done (o : BatchOptions) (p : Path) (r : Except EngineError FileResult) (w : World) :
    finish o p (.done r) w = (r, w) := by
  rw [finish]
  rfl

theorem finish_step (o : BatchOptions) (p : Path) (s : Stage) (w : World) :
    finish o p s w = finish o p (step o p s w).1 (step o p s w).2 := by
  cases hs : s.result? with
  | some r =>
    obtain rfl := Stage.eq_done hs
    rfl
  | none =>
    rw [finish]
    split
    · simp_all
    · rfl

private theorem finish_congr (h : Matches s w w') (o : BatchOptions) (p : Path) :
    (finish o p s w).1 = (finish o p s w').1 := by
  induction hn : s.rank using Nat.strong_induction_on generalizing s w w' with
  | _ n ih =>
    cases hs : s.result? with
    | some r =>
      obtain rfl := Stage.eq_done hs
      simp [finish_done]
    | none =>
      obtain ⟨hstep, hm⟩ := h.step o p
      have hlt : (Batch.step o p s w).1.rank < n := hn ▸ rank_step_lt o p hs w
      rw [finish_step o p s w, finish_step o p s w', ← hstep]
      exact ih _ hlt hm rfl

private theorem finish_next (h : w.engine.Faithful)
    (hf : (step o p s w).1.filed = true ∨ (step o p s w).2.files = w.files) :
    (finish o p (step o p s w).1 w).1 = (finish o p s w).1 := by
  obtain ⟨hk, ha⟩ := step_keeps h o p s w.files
  rw [finish_step o p s w]
  exact finish_congr ⟨h, hk, ha, hf.imp id Eq.symm⟩ o p

end alone

/-- The size up to which files are read. -/
def World.limit (w : World) : Nat := w.engine.settings.maxFileSize

/-- The file can be read. -/
def Readable (files : FileTree) (limit : Nat) (p : Path) : Prop :=
  ∃ html, readHtml files limit p = .ok html

variable {n : Nat}

/-- The trees that can come about when the other files, as far as they can be read, are written,
with whatever content, in whatever order and how often. -/
inductive OthersWrote (o : BatchOptions) (ps : Fin n → Path) (files : FileTree) (limit : Nat)
    (i : Fin n) : FileTree → Prop
  | nothing : OthersWrote o ps files limit i files
  | write {t : FileTree} {j : Fin n} (h : OthersWrote o ps files limit i t) (hj : j ≠ i)
      (hf : o.fix = true) (hr : Readable files limit (ps j)) (content : ByteArray) :
      OthersWrote o ps files limit i (t.writeBelow (target o (ps j)) content).2

/-- What is written for the other files changes neither what is read of a file nor whether it can
be written. -/
structure Undisturbed (o : BatchOptions) (ps : Fin n → Path) (files : FileTree) (limit : Nat)
    (i : Fin n) : Prop where
  read : ∀ t, OthersWrote o ps files limit i t →
    readHtml t limit (ps i) = readHtml files limit (ps i)
  write : Readable files limit (ps i) → ∀ t, OthersWrote o ps files limit i t → ∀ content,
    (t.writeBelow (target o (ps i)) content).1 = (files.writeBelow (target o (ps i)) content).1

/-- What is known of a file that has come this far. -/
def Stage.Grounded (o : BatchOptions) (w : World) (p : Path) : Stage → Prop
  | .loaded _ => Readable w.files w.limit p
  | .repaired _ => o.fix = true ∧ Readable w.files w.limit p
  | _ => True

/-- The work on a file is on the way to the result it would have alone, and until the file is
written nothing but the other files has been. -/
structure Stage.Due (o : BatchOptions) (ps : Fin n → Path) (w : World) (i : Fin n) (t : FileTree)
    (s : Stage) : Prop where
  ends : (finish o (ps i) s w).1 = (process o (ps i) w).1
  grounded : s.Grounded o w (ps i)
  files : s.filed = true ∨ OthersWrote o ps w.files w.limit i t

section due
variable {o : BatchOptions} {ps : Fin n → Path} {w : World} {i j : Fin n} {t t' : FileTree}
  {s s' : Stage} {e : Engine}

theorem Stage.Due.next (h : s.Due o ps w i t) (hw : w.engine.Faithful)
    (hs : (step o (ps i) s w).1 = s')
    (hf : s'.filed = true ∨ (step o (ps i) s w).2.files = w.files)
    (hg : s'.Grounded o w (ps i)) (ht : s'.filed = true ∨ OthersWrote o ps w.files w.limit i t') :
    s'.Due o ps w i t' := by
  subst hs
  exact ⟨(finish_next hw hf).trans h.ends, hg, ht⟩

def Stage.ofRead : Except EngineError Text → Stage
  | .error err => .done (.error err)
  | .ok html => .loaded html

theorem step_unread (o : BatchOptions) (p : Path) (e : Engine) (files : FileTree) :
    step o p .unread ⟨e, files⟩ =
      (.ofRead (e.currentSettings.1 >>= fun s => readHtml files s.maxFileSize p), ⟨e, files⟩) := by
  rw [step]
  cases e.currentSettings.1 with
  | error err => rfl
  | ok settings =>
    change _ = (Stage.ofRead (readHtml files settings.maxFileSize p), _)
    dsimp only
    cases readHtml files settings.maxFileSize p <;> rfl

theorem readHtml_currentSettings (e : Engine) (p : Path) (files : FileTree) :
    (e.currentSettings.1 >>= fun s => readHtml files s.maxFileSize p) =
      if e.disposed then .error .disposed else readHtml files e.settings.maxFileSize p := by
  unfold currentSettings whenActive
  split <;> rfl

theorem Stage.Due.read (h : Stage.unread.Due o ps w i t) (hu : Undisturbed o ps w.files w.limit i)
    (hw : w.engine.Faithful) (ha : Alike e w.engine) :
    (step o (ps i) .unread ⟨e, t⟩).1.Due o ps w i t := by
  have ho : OthersWrote o ps w.files w.limit i t := h.files.resolve_left nofun
  have hread : readHtml t w.engine.settings.maxFileSize (ps i) =
      readHtml w.files w.engine.settings.maxFileSize (ps i) := hu.read t ho
  have hs : (step o (ps i) .unread w).1 = (step o (ps i) .unread ⟨e, t⟩).1 := by
    rw [step_unread, step_unread, readHtml_currentSettings, readHtml_currentSettings, ha.disposed,
      ha.settings, hread]
  apply h.next hw hs
  · exact .inr (congrArg (·.2.files) (step_unread o (ps i) w.engine w.files))
  · rw [← hs, step_unread, readHtml_currentSettings]
    split
    · trivial
    · cases hr : readHtml w.files w.engine.settings.maxFileSize (ps i) with
      | error err => trivial
      | ok html => exact ⟨html, hr⟩
  · exact .inr ho

def Stage.ofWrite (outcome : Repair.Outcome) (place : Path) : Except FileFault Unit → Stage
  | .error f => .done (.error (.io f))
  | .ok () => .ready outcome.html outcome.fixed (some place)

private theorem filed_ofWrite (outcome : Repair.Outcome) (place : Path)
    (r : Except FileFault Unit) :
    (Stage.ofWrite outcome place r).filed = true := by
  cases r <;> rfl

theorem step_repaired (o : BatchOptions) (p : Path) (outcome : Repair.Outcome) (e : Engine)
    (files : FileTree) :
    step o p (.repaired outcome) ⟨e, files⟩ =
      if outcome.changed then
        let x := files.writeBelow (target o p) (Text.toBytes outcome.html)
        (.ofWrite outcome (target o p) x.1, ⟨e, x.2⟩)
      else (.ready outcome.html [] none, ⟨e, files⟩) := by
  rw [step]
  split
  · dsimp only
    rcases files.writeBelow (target o p) (Text.toBytes outcome.html) with ⟨_ | _, t⟩ <;> rfl
  · rfl

theorem files_step (o : BatchOptions) (p : Path) (s : Stage) (w : World) :
    (step o p s w).2.files = w.files ∨
      ∃ outcome content, s = .repaired outcome ∧
        (step o p s w).2.files = (w.files.writeBelow (target o p) content).2 := by
  cases s with
  | unread => exact .inl (congrArg (·.2.files) (step_unread o p w.engine w.files))
  | loaded html =>
    left
    rw [step, withEngine]
    split
    · split <;> rfl
    · rfl
  | repaired outcome =>
    rw [step_repaired o p outcome w.engine w.files]
    split
    · exact .inr ⟨_, _, rfl, rfl⟩
    · exact .inl rfl
  | ready html fixed writtenTo => exact .inl (by rw [step_of_filed rfl w.engine w.files w.files])
  | checked html r => exact .inl (by rw [step_of_filed rfl w.engine w.files w.files])
  | done r => exact .inl rfl

theorem grounded_of_filed (h : s.filed = true) (o : BatchOptions) (w : World) (p : Path) :
    s.Grounded o w p := by
  cases s with
  | unread => exact absurd h nofun
  | loaded html => exact absurd h nofun
  | repaired outcome => exact absurd h nofun
  | _ => trivial

theorem Stage.Due.write {outcome : Repair.Outcome} (h : (Stage.repaired outcome).Due o ps w i t)
    (hu : Undisturbed o ps w.files w.limit i) (hw : w.engine.Faithful) (t' : FileTree) :
    (step o (ps i) (.repaired outcome) ⟨e, t⟩).1.Due o ps w i t' := by
  have ho : OthersWrote o ps w.files w.limit i t := h.files.resolve_left nofun
  have hs : (step o (ps i) (.repaired outcome) w).1 =
      (step o (ps i) (.repaired outcome) ⟨e, t⟩).1 := by
    rw [step_repaired, step_repaired]
    split
    · simp only [hu.write h.grounded.2 t ho]
    · rfl
  have hf : (step o (ps i) (.repaired outcome) ⟨e, t⟩).1.filed = true := by
    rw [step_repaired]
    split
    · exact filed_ofWrite _ _ _
    · rfl
  exact h.next hw hs (.inl hf) (grounded_of_filed hf o w (ps i)) (.inl hf)

theorem Stage.Due.step_filed (h : s.Due o ps w i t) (hw : w.engine.Faithful)
    (ha : Alike e w.engine) (hc : calls e o (ps i) s = none) (hs : s.filed = true) (t' : FileTree) :
    (step o (ps i) s ⟨e, t⟩).1.Due o ps w i t' := by
  have hf := filed_step hs o (ps i) ⟨e, t⟩
  refine h.next hw ?_ (.inl hf) (grounded_of_filed hf o w (ps i)) (.inl hf)
  have hw' : (step o (ps i) s w).1 = (step o (ps i) s ⟨w.engine, t⟩).1 := by
    rw [congrArg Prod.fst (step_of_filed hs w.engine w.files t)]
  rw [step_of_no_calls ha hc, hw']

/-- A step without the engine leads on to the same result. -/
theorem Stage.Due.step_files (h : s.Due o ps w i t) (hu : Undisturbed o ps w.files w.limit i)
    (hw : w.engine.Faithful) (ha : Alike e w.engine) (hc : calls e o (ps i) s = none) :
    (step o (ps i) s ⟨e, t⟩).1.Due o ps w i (step o (ps i) s ⟨e, t⟩).2.files := by
  cases s with
  | unread =>
    rw [congrArg (·.2.files) (step_unread o (ps i) e t)]
    exact h.read hu hw ha
  | repaired outcome => exact h.write hu hw _
  | loaded html =>
    have hf : ¬o.fix = true := by
      intro hf
      simp [calls, hf] at hc
    have hs (w : World) : step o (ps i) (.loaded html) w = (.ready html [] none, w) := by
      rw [step, if_neg hf]
    rw [hs]
    exact h.next hw (by rw [hs]) (.inl rfl) trivial (.inl rfl)
  | ready html fixed writtenTo => exact h.step_filed hw ha hc rfl _
  | checked html r => exact h.step_filed hw ha hc rfl _
  | done r => exact h.step_filed hw ha hc rfl _

private theorem grounded_calls {work : Work Stage} (hc : calls w.engine o (ps i) s = some work)
    (h : s.Grounded o w (ps i)) : (step o (ps i) s w).1.Grounded o w (ps i) := by
  cases s with
  | loaded html =>
    simp only [calls, Option.ite_none_right_eq_some] at hc
    rw [step, if_pos hc.1, withEngine]
    split
    · exact ⟨hc.1, h⟩
    · trivial
  | unread => exact absurd hc (Option.some_ne_none _).symm
  | repaired outcome => exact absurd hc (Option.some_ne_none _).symm
  | ready html fixed writtenTo => exact grounded_of_filed (filed_step rfl o (ps i) w) o w (ps i)
  | checked html r => exact grounded_of_filed (filed_step rfl o (ps i) w) o w (ps i)
  | done r => exact absurd hc (Option.some_ne_none _).symm

/-- A step with the engine leads on to the same result. -/
theorem Stage.Due.step_calls (h : s.Due o ps w i t) (hw : w.engine.Faithful)
    (ha : Alike e w.engine) {work : Work Stage} (hc : calls e o (ps i) s = some work) :
    ∃ s', work.Gives w.engine.settings.limits s' ∧ s'.Due o ps w i t := by
  have hcw : calls w.engine o (ps i) s = some work := calls_congr ha o (ps i) s ▸ hc
  obtain ⟨s', hs'⟩ := settled_calls hcw
  have hstep := step_of_calls hcw w.files
  have hs : (step o (ps i) s w).1 = s' := (congrArg Prod.fst hstep).trans (hs'.run hw).1
  suffices hd : s'.Grounded o w (ps i) ∧
      (s'.filed = true ∨ OthersWrote o ps w.files w.limit i t) from
    ⟨s', hs', h.next hw hs (.inr (congrArg (·.2.files) hstep)) hd.1 hd.2⟩
  rcases h.files with hf | ho
  · have hf' : s'.filed = true := hs ▸ filed_step hf o (ps i) w
    exact ⟨grounded_of_filed hf' o w (ps i), .inl hf'⟩
  · exact ⟨hs ▸ grounded_calls hcw h.grounded, .inr ho⟩

/-- What is written for one file is, for the others, one more file written by others. -/
theorem othersWrote_step (h : s.Due o ps w i t) (hij : i ≠ j)
    (ho : OthersWrote o ps w.files w.limit j t) :
    OthersWrote o ps w.files w.limit j (step o (ps i) s ⟨e, t⟩).2.files := by
  rcases files_step o (ps i) s ⟨e, t⟩ with hf | ⟨outcome, content, rfl, hf⟩
  · rw [hf]
    exact ho
  · rw [hf]
    exact ho.write hij h.grounded.1 h.grounded.2 content

end due

/-- The work on a file: between two steps, or in the middle of one with the engine. -/
inductive Worker where
  | idle (s : Stage)
  | busy (work : Work Stage)

/-- What a worker does at one stroke. -/
def Worker.advance (o : BatchOptions) (p : Path) : Worker → World → Worker × World
  | .idle s, w =>
    match calls w.engine o p s with
    | some work => (.busy work, w)
    | none => (.idle (step o p s w).1, (step o p s w).2)
  | .busy (.done s), w => (.idle s, w)
  | .busy (.step q next), w =>
    (.busy (next (q.apply w.engine).1), { w with engine := (q.apply w.engine).2 })

/-- The workers on all files, and what they share. -/
structure Crew (n : Nat) where
  world : World
  workers : Fin n → Worker

/-- What may happen next. -/
inductive Move (n : Nat) where
  | file (i : Fin n)
  | wait (time : Time)
  | sweepTrees
  | sweepPatterns

namespace Crew

def start (w : World) : Crew n := ⟨w, fun _ => .idle .unread⟩

def move (o : BatchOptions) (ps : Fin n → Path) (c : Crew n) : Move n → Crew n
  | .file i =>
    let x := (c.workers i).advance o (ps i) c.world
    ⟨x.2, Function.update c.workers i x.1⟩
  | .wait time => { c with world.engine := c.world.engine.wait time }
  | .sweepTrees =>
    let e := c.world.engine
    { c with world.engine := { e with trees := e.trees.sweep e.workshop.clock } }
  | .sweepPatterns =>
    let e := c.world.engine
    let patterns := e.workshop.patterns.sweep e.workshop.clock
    { c with world.engine := { e with workshop := { e.workshop with patterns } } }

/-- The crew when so many moves of a schedule have been made. -/
def after (o : BatchOptions) (ps : Fin n → Path) (w : World) (σ : ℕ → Move n) : ℕ → Crew n
  | 0 => start w
  | k + 1 => (after o ps w σ k).move o ps (σ k)

end Crew

def Worker.Due (o : BatchOptions) (ps : Fin n → Path) (w : World) (i : Fin n) (t : FileTree) :
    Worker → Prop
  | .idle s => s.Due o ps w i t
  | .busy work => ∃ s : Stage, work.Gives w.engine.settings.limits s ∧ s.Due o ps w i t

/-- The engine is faithful, with the settings and rules there were, and every worker is on the way
to the result it would have alone in the world `w`. -/
structure Crew.OnCourse (o : BatchOptions) (ps : Fin n → Path) (w : World) (c : Crew n) : Prop where
  faithful : c.world.engine.Faithful
  alike : Alike c.world.engine w.engine
  due : ∀ i, (c.workers i).Due o ps w i c.world.files

section onCourse
variable {o : BatchOptions} {ps : Fin n → Path} {w v : World} {i j : Fin n} {t t' : FileTree}
  {x : Worker} {c : Crew n}

theorem Worker.Due.frame (h : x.Due o ps w i t)
    (ht : OthersWrote o ps w.files w.limit i t → OthersWrote o ps w.files w.limit i t') :
    x.Due o ps w i t' := by
  cases x with
  | idle s => exact ⟨h.ends, h.grounded, h.files.imp id ht⟩
  | busy work =>
    obtain ⟨s, hs, h⟩ := h
    exact ⟨s, hs, h.ends, h.grounded, h.files.imp id ht⟩

theorem Worker.Due.advance (h : x.Due o ps w i v.files) (hu : Undisturbed o ps w.files w.limit i)
    (hw : w.engine.Faithful) (hv : v.engine.Faithful) (ha : Alike v.engine w.engine) :
    (x.advance o (ps i) v).2.engine.Faithful ∧ Alike (x.advance o (ps i) v).2.engine w.engine ∧
      (x.advance o (ps i) v).1.Due o ps w i (x.advance o (ps i) v).2.files := by
  match x, h with
  | .idle s, h =>
    rw [Worker.advance]
    cases hc : calls v.engine o (ps i) s with
    | some work => exact ⟨hv, ha, Stage.Due.step_calls h hw ha hc⟩
    | none =>
      obtain ⟨hk, hak⟩ := step_keeps hv o (ps i) s v.files
      exact ⟨hk, hak.symm.trans ha, Stage.Due.step_files h hu hw ha hc⟩
  | .busy (.done s), ⟨s', hs, h⟩ =>
    obtain rfl : s = s' := hs
    exact ⟨hv, ha, h⟩
  | .busy (.step q next), ⟨s', hs, h⟩ =>
    have hl : q.Allows w.engine.settings.limits (q.apply v.engine).1 :=
      ha.settings ▸ q.allows_apply hv
    exact ⟨Section.faithful_apply hv (ha.settings ▸ hs.1), (alike_section _ q).symm.trans ha,
      s', hs.2 _ hl, h⟩

private theorem othersWrote_advance (h : x.Due o ps w i v.files) (hij : i ≠ j)
    (ho : OthersWrote o ps w.files w.limit j v.files) :
    OthersWrote o ps w.files w.limit j (x.advance o (ps i) v).2.files := by
  match x, h with
  | .idle s, h =>
    rw [Worker.advance]
    split
    · exact ho
    · exact othersWrote_step h hij ho
  | .busy (.done s), _ => exact ho
  | .busy (.step q next), _ => exact ho

theorem Crew.OnCourse.move (h : c.OnCourse o ps w) (hu : ∀ i, Undisturbed o ps w.files w.limit i)
    (hw : w.engine.Faithful) (m : Move n) : (c.move o ps m).OnCourse o ps w := by
  obtain ⟨hs, hr, hd⟩ := h.alike
  cases m with
  | file i =>
    obtain ⟨hf, ha, hd⟩ := (h.due i).advance (hu i) hw h.faithful h.alike
    refine ⟨hf, ha, fun j => ?_⟩
    by_cases hj : j = i
    · subst hj
      simpa [Crew.move] using hd
    · simp only [Crew.move, Function.update_of_ne hj]
      exact (h.due j).frame (othersWrote_advance (h.due i) (Ne.symm hj))
  | wait time => exact ⟨⟨h.faithful.trees, h.faithful.workshop⟩, ⟨hs, hr, hd⟩, h.due⟩
  | sweepTrees => exact ⟨⟨h.faithful.trees.sweep _, h.faithful.workshop⟩, ⟨hs, hr, hd⟩, h.due⟩
  | sweepPatterns =>
    have hp := Cache.Holds.sweep h.faithful.workshop c.world.engine.workshop.clock
    exact ⟨⟨h.faithful.trees, hp⟩, ⟨hs, hr, hd⟩, h.due⟩

theorem Crew.onCourse_after (hv : v.engine.Faithful) (ha : Alike v.engine w.engine)
    (hf : v.files = w.files) (hu : ∀ i, Undisturbed o ps w.files w.limit i) (hw : w.engine.Faithful)
    (σ : ℕ → Move n) (k : ℕ) : (Crew.after o ps v σ k).OnCourse o ps w := by
  induction k with
  | zero => exact ⟨hv, ha, fun i => ⟨rfl, trivial, .inr (hf ▸ .nothing)⟩⟩
  | succ k ih => exact ih.move hu hw (σ k)

end onCourse

end Batch

namespace Engine.Work
variable {α β : Type}

/-- The work can end with `a`, if it gets the right answers. -/
def Yields : Work α → α → Prop
  | done b, a => b = a
  | step _ next, a => ∃ x, (next x).Yields a

private theorem Yields.of_bind {w : Work α} {f : α → Work β} {b : β} (h : (w >>= f).Yields b) :
    ∃ a, (f a).Yields b := by
  induction w with
  | done a => exact ⟨a, h⟩
  | step q next ih =>
    obtain ⟨x, hx⟩ := h
    exact ih x hx

end Engine.Work

namespace Batch
open Engine

theorem yields_usingEngine {α : Type} {w : Work (Result α)} {next : α → Stage} {s : Stage}
    (h : (usingEngine w next).Yields s) :
    (∃ a, next a = s) ∨ ∃ err, Stage.done (.error err) = s := by
  obtain ⟨r, hr⟩ := h.of_bind
  cases r with
  | ok a => exact .inl ⟨a, hr⟩
  | error err => exact .inr ⟨err, hr⟩

/-- What a step with the engine can lead to. -/
inductive Stage.Leads (o : BatchOptions) (p : Path) : Stage → Stage → Prop where
  | repaired (html : Text) (outcome : Repair.Outcome) (fix : o.fix = true) :
      Leads o p (.loaded html) (.repaired outcome)
  | checked (html : Text) (fixed : List String) (writtenTo : Option Path) (report : Report) :
      Leads o p (.ready html fixed writtenTo)
        (.checked html
          { path := p, status := .ofReport report, report := some report, fixed, writtenTo })
  | compared (html : Text) (r : FileResult) (c : CompatibilityReport) (compat : o.compat = true) :
      Leads o p (.checked html r) (.done (.ok { r with compatibility := some c }))
  | failed {s : Stage} (err : EngineError) (pending : s.result? = none) :
      Leads o p s (.done (.error err))

section Leads
variable {e : Engine} {o : BatchOptions} {p : Path} {s s' : Stage} {work : Work Stage}

theorem leads_of_calls (h : calls e o p s = some work) (hs : work.Yields s') : s.Leads o p s' := by
  cases s with
  | loaded html =>
    simp only [calls, Option.ite_none_right_eq_some, Option.some.injEq] at h
    obtain ⟨hf, rfl⟩ := h
    obtain ⟨a, rfl⟩ | ⟨err, rfl⟩ := yields_usingEngine hs
    · exact .repaired html a hf
    · exact .failed err rfl
  | ready html fixed writtenTo =>
    obtain rfl := Option.some.inj h
    obtain ⟨a, rfl⟩ | ⟨err, rfl⟩ := yields_usingEngine hs
    · exact .checked html fixed writtenTo a
    · exact .failed err rfl
  | checked html r =>
    simp only [calls, Option.ite_none_right_eq_some, Option.some.injEq] at h
    obtain ⟨hc, rfl⟩ := h
    obtain ⟨a, rfl⟩ | ⟨err, rfl⟩ := yields_usingEngine hs
    · exact .compared html r a hc
    · exact .failed err rfl
  | unread => exact absurd h (Option.some_ne_none _).symm
  | repaired outcome => exact absurd h (Option.some_ne_none _).symm
  | done r => exact absurd h (Option.some_ne_none _).symm

private theorem Stage.Leads.rank_lt (h : s.Leads o p s') : s'.rank < s.rank := by
  cases h with
  | repaired => exact Nat.lt_succ_self _
  | checked => exact Nat.lt_succ_self _
  | compared => exact Nat.lt_succ_self _
  | failed err pending => exact rank_pos pending

end Leads

/-- No worker is kept waiting for ever. -/
def Fair (σ : ℕ → Move n) : Prop := ∀ i k, ∃ m ≥ k, σ m = .file i

namespace Crew
variable {o : BatchOptions} {ps : Fin n → Path} {w v : World} {σ : ℕ → Move n} {i : Fin n} {k : ℕ}

theorem workers_after_succ (h : σ k ≠ .file i) :
    (after o ps v σ (k + 1)).workers i = (after o ps v σ k).workers i := by
  rw [after]
  cases hm : σ k with
  | file j =>
    have hij : i ≠ j := by
      rintro rfl
      exact h hm
    simp [move, hij]
  | wait time => rfl
  | sweepTrees => rfl
  | sweepPatterns => rfl

theorem exists_turn (o : BatchOptions) (ps : Fin n → Path) (v : World) (hσ : Fair σ) (i : Fin n)
    (k : ℕ) :
    ∃ m > k, ∃ w', (after o ps v σ m).workers i =
      (((after o ps v σ k).workers i).advance o (ps i) w').1 := by
  obtain ⟨m, hm, hmi⟩ := hσ i k
  induction hd : m - k generalizing k with
  | zero =>
    obtain rfl : m = k := by omega
    refine ⟨m + 1, Nat.lt_succ_self m, (after o ps v σ m).world, ?_⟩
    simp [after, move, hmi]
  | succ d ih =>
    by_cases hk : σ k = .file i
    · refine ⟨k + 1, Nat.lt_succ_self k, (after o ps v σ k).world, ?_⟩
      simp [after, move, hk]
    · obtain ⟨m', hm', w', hw⟩ := ih (k + 1) (by omega) (by omega)
      exact ⟨m', by omega, w', hw.trans (by rw [workers_after_succ hk])⟩

private theorem exists_idle_of_busy (hσ : Fair σ) {work : Work Stage}
    (h : (after o ps v σ k).workers i = .busy work) :
    ∃ m ≥ k, ∃ s, (after o ps v σ m).workers i = .idle s ∧ work.Yields s := by
  induction work generalizing k with
  | done s =>
    obtain ⟨m, hm, w', hw⟩ := exists_turn o ps v hσ i k
    rw [h] at hw
    exact ⟨m, hm.le, s, hw, rfl⟩
  | step q next ih =>
    obtain ⟨m, hm, w', hw⟩ := exists_turn o ps v hσ i k
    rw [h] at hw
    obtain ⟨m', hm', s, hs, hy⟩ := ih _ hw
    exact ⟨m', hm.le.trans hm', s, hs, _, hy⟩

/-- Step by step the work on every file comes to its end. -/
theorem exists_done (hσ : Fair σ) {s : Stage} (h : (after o ps v σ k).workers i = .idle s) :
    ∃ m ≥ k, ∃ r, (after o ps v σ m).workers i = .idle (.done r) := by
  induction hr : s.rank using Nat.strong_induction_on generalizing s k with
  | _ rank ih =>
    subst hr
    cases hs : s.result? with
    | some r =>
      obtain rfl := Stage.eq_done hs
      exact ⟨k, le_rfl, r, h⟩
    | none =>
      obtain ⟨m, hm, w', hw⟩ := exists_turn o ps v hσ i k
      rw [h, Worker.advance] at hw
      cases hc : calls w'.engine o (ps i) s with
      | some work =>
        rw [hc] at hw
        obtain ⟨m', hm', s', hs', hy⟩ := exists_idle_of_busy hσ hw
        obtain ⟨m'', hm'', hd⟩ := ih _ (leads_of_calls hc hy).rank_lt hs' rfl
        exact ⟨m'', hm.le.trans (hm'.trans hm''), hd⟩
      | none =>
        rw [hc] at hw
        have hlt : (step o (ps i) s w').1.rank < s.rank := rank_step_lt o (ps i) hs w'
        obtain ⟨m', hm', hd⟩ := ih _ hlt hw rfl
        exact ⟨m', hm.le.trans hm', hd⟩

private theorem done_stays {r : Except EngineError FileResult} {m : ℕ} (hm : k ≤ m)
    (h : (after o ps v σ k).workers i = .idle (.done r)) :
    (after o ps v σ m).workers i = .idle (.done r) := by
  induction m, hm using Nat.le_induction with
  | base => exact h
  | succ m hm ih =>
    by_cases hi : σ m = .file i
    · simp [after, move, hi, ih, Worker.advance, calls, step]
    · rw [workers_after_succ hi, ih]

/-- Whatever the schedule, in the end every worker has the result it would have had alone. -/
theorem finishes (hv : v.engine.Faithful) (ha : Alike v.engine w.engine) (hf : v.files = w.files)
    (hu : ∀ i, Undisturbed o ps w.files w.limit i) (hw : w.engine.Faithful) (hσ : Fair σ) :
    ∃ m, ∀ k ≥ m, ∀ i,
      (after o ps v σ k).workers i = .idle (.done (process o (ps i) w).1) := by
  have hdone (i : Fin n) : ∃ m, ∃ r, (after o ps v σ m).workers i = .idle (.done r) := by
    have h₀ : (after o ps v σ 0).workers i = .idle .unread := rfl
    obtain ⟨m, -, r, h⟩ := exists_done hσ h₀
    exact ⟨m, r, h⟩
  choose m r h using hdone
  refine ⟨Finset.univ.sup m, fun k hk i => ?_⟩
  have hi := done_stays ((Finset.le_sup (Finset.mem_univ i)).trans hk) (h i)
  have hc : Worker.Due o ps w i _ (.idle (.done (r i))) :=
    hi ▸ (onCourse_after hv ha hf hu hw σ k).due i
  rw [hi, ← hc.ends, finish_done]

end Crew

end Batch
end MailMarkup
