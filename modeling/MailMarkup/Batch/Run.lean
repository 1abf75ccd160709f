import MailMarkup.Batch.Result
import MailMarkup.Engine.Basic
import MailMarkup.Files.Tree

/-!
# Checking many files

One engine serves all files. The work on a file is a chain of steps: it is read, repaired, written
back, checked, and looked at for each client. Each step is one use of the engine or of the files, so
the steps for several files may be taken in turn; `Batch.run` takes the files one after another.
-/
namespace MailMarkup

structure BatchOptions where
  fix : Bool := false
  /-- Where repaired files go, if not to their own place. -/
  outDir : Option Path := none
  compat : Bool := false
  deriving DecidableEq, Repr, Inhabited

namespace Batch

/-- What the work on all files shares. -/
structure World where
  engine : Engine
  files : FileTree

/-- How far the work on a file has come. -/
inductive Stage where
  | unread
  | loaded (html : Text)
  | repaired (o : Repair.Outcome)
  | ready (html : Text) (fixed : List String) (writtenTo : Option Path)
  | checked (html : Text) (r : FileResult)
  | done (r : Except EngineError FileResult)

def readHtml (files : FileTree) (limit : Nat) (p : Path) : Except EngineError Text :=
  match files.get p with
  | .error f => .error (.io f)
  | .ok e =>
    if limit < e.size then .error (.fileTooLarge p.display e.size limit)
    else
      match files.read p with
      | .error f => .error (.io f)
      | .ok content =>
        match Text.ofBytes? content with
        | some t => .ok t
        | none => .error (.invalidEncoding p.display)

def target (o : BatchOptions) (p : Path) : Path :=
  match o.outDir with
  | some dir => dir.copyUnder p
  | none => p

/-- Does a step with the engine; what the engine refuses ends the work on the file. -/
def withEngine {α : Type} (w : World) (f : Engine → Engine.Result α × Engine) (next : α → Stage) :
    Stage × World :=
  match f w.engine with
  | (.ok a, engine) => (next a, { w with engine })
  | (.error e, engine) => (.done (.error e), { w with engine })

def step (o : BatchOptions) (p : Path) (s : Stage) (w : World) : Stage × World :=
  match s with
  | .unread =>
    match w.engine.currentSettings.1 with
    | .error e => (.done (.error e), w)
    | .ok settings =>
      match readHtml w.files settings.maxFileSize p with
      | .error e => (.done (.error e), w)
      | .ok html => (.loaded html, w)
  | .loaded html =>
    if o.fix then withEngine w (·.repair html) .repaired else (.ready html [] none, w)
  | .repaired outcome =>
    if outcome.changed then
      let t := target o p
      match w.files.writeBelow t (Text.toBytes outcome.html) with
      | (.error f, files) => (.done (.error (.io f)), { w with files })
      | (.ok (), files) => (.ready outcome.html outcome.fixed (some t), { w with files })
    else (.ready outcome.html [] none, w)
  | .ready html fixed writtenTo =>
    withEngine w (·.validate html) fun report =>
      let status := FileStatus.ofReport report
      .checked html { path := p, status, report := some report, fixed, writtenTo }
  | .checked html r =>
    if o.compat then
      withEngine w (·.compatibility html) fun c => .done (.ok { r with compatibility := some c })
    else (.done (.ok r), w)
  | .done r => (.done r, w)

/-- How many steps there are at most before the work on a file is done. -/
def Stage.rank : Stage → Nat
  | .unread => 5
  | .loaded _ => 4
  | .repaired _ => 3
  | .ready _ _ _ => 2
  | .checked _ _ => 1
  | .done _ => 0

theorem withEngine_rank {α : Type} (w : World) (f : Engine → Engine.Result α × Engine)
    (next : α → Stage) (n : Nat) (h : ∀ a, (next a).rank ≤ n) :
    (withEngine w f next).1.rank ≤ n := by
  unfold withEngine
  split
  · exact h _
  · exact Nat.zero_le _

theorem step_rank (o : BatchOptions) (p : Path) (s : Stage) (w : World) :
    (step o p s w).1.rank ≤ s.rank - 1 := by
  cases s with
  | unread => simp only [step]; repeat' split
              all_goals simp [Stage.rank]
  | loaded html =>
    simp only [step]; split
    · exact withEngine_rank _ _ _ _ fun _ => Nat.le_refl _
    · simp [Stage.rank]
  | repaired outcome => simp only [step]; repeat' split
                        all_goals simp [Stage.rank]
  | ready html fixed writtenTo => exact withEngine_rank _ _ _ _ fun _ => Nat.le_refl _
  | checked html r =>
    simp only [step]; split
    · exact withEngine_rank _ _ _ _ fun _ => Nat.le_refl _
    · simp [Stage.rank]
  | done r => simp [step, Stage.rank]

def Stage.result? : Stage → Option (Except EngineError FileResult)
  | .done r => some r
  | _ => none

theorem Stage.rank_pos {s : Stage} (h : s.result? = none) : 0 < s.rank := by
  cases s <;> simp_all [result?, rank]

def finish (o : BatchOptions) (p : Path) (s : Stage) (w : World) :
    Except EngineError FileResult × World :=
  match hs : s.result? with
  | some r => (r, w)
  | none =>
    let next := step o p s w
    have : next.1.rank < s.rank :=
      Nat.lt_of_le_of_lt (step_rank o p s w) (Nat.sub_lt (Stage.rank_pos hs) Nat.one_pos)
    finish o p next.1 next.2
termination_by s.rank

def process (o : BatchOptions) (p : Path) (w : World) : Except EngineError FileResult × World :=
  finish o p .unread w

/-- The result for a file; what kept it from being checked is part of it. -/
def result (p : Path) : Except EngineError FileResult → FileResult
  | .ok r => r
  | .error e => .failed p e

def run (o : BatchOptions) : List Path → World → List FileResult × World
  | [], w => ([], w)
  | p :: ps, w =>
    let (r, w) := process o p w
    let (rs, w) := run o ps w
    (result p r :: rs, w)

end Batch
end MailMarkup
