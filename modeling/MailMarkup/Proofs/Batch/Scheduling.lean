import Mathlib.Data.List.FinRange
import MailMarkup.Proofs.Batch.Interleaving
import MailMarkup.Proofs.Files.Places
import MailMarkup.Proofs.Repair.FixedPoint

/-!
# The results of a batch do not depend on the schedule

Each file gets the result it would have had alone, with an engine that has the same rules and
settings but remembers nothing: when the files are worked on one after another, and under every fair
schedule of the workers. Files that are repaired in their own places are undisturbed as soon as no
two paths lead to one file.
-/
namespace MailMarkup

namespace Batch
open Engine FileTree FileEntry
variable {n : Nat} {o : BatchOptions} {ps : Fin n → Path} {w v : World} {i j : Fin n} {s : Stage}

private theorem finish_keeps (hv : v.engine.Faithful) (o : BatchOptions) (p : Path) (s : Stage) :
    (finish o p s v).2.engine.Faithful ∧ Alike v.engine (finish o p s v).2.engine := by
  induction hr : s.rank using Nat.strong_induction_on generalizing s v with
  | _ rank ih =>
    subst hr
    cases hs : s.result? with
    | some r =>
      obtain rfl := Stage.eq_done hs
      rw [finish_done]
      exact ⟨hv, .refl _⟩
    | none =>
      have hlt : (step o p s v).1.rank < s.rank := rank_step_lt o p hs v
      obtain ⟨hk, ha⟩ := step_keeps hv o p s v.files
      obtain ⟨hf, ha'⟩ := ih _ hlt hk _ rfl
      rw [finish_step]
      exact ⟨hf, ha.trans ha'⟩

theorem Stage.Due.step (h : s.Due o ps w i v.files) (hu : Undisturbed o ps w.files w.limit i)
    (hw : w.engine.Faithful) (hv : v.engine.Faithful) (ha : Alike v.engine w.engine) :
    (step o (ps i) s v).1.Due o ps w i (step o (ps i) s v).2.files := by
  cases hc : calls v.engine o (ps i) s with
  | some work =>
    obtain ⟨s', hs, hd⟩ := h.step_calls hw ha hc
    have hs' : (work.run v.engine).1 = s' := (Work.Gives.run (ha.settings ▸ hs) hv).1
    rw [step_of_calls hc v.files, hs']
    exact hd
  | none => exact h.step_files hu hw ha hc

/-- The work on one file from begin to end, with other files written before it. -/
theorem Stage.Due.finish (h : s.Due o ps w i v.files) (hu : Undisturbed o ps w.files w.limit i)
    (hw : w.engine.Faithful) (hv : v.engine.Faithful) (ha : Alike v.engine w.engine) :
    (finish o (ps i) s v).1 = (process o (ps i) w).1 ∧
      (finish o (ps i) s v).2.engine.Faithful ∧ Alike (finish o (ps i) s v).2.engine w.engine ∧
      ∀ j, i ≠ j → OthersWrote o ps w.files w.limit j v.files →
        OthersWrote o ps w.files w.limit j (finish o (ps i) s v).2.files := by
  induction hr : s.rank using Nat.strong_induction_on generalizing s v with
  | _ rank ih =>
    subst hr
    cases hs : s.result? with
    | some r =>
      obtain rfl := Stage.eq_done hs
      rw [finish_done]
      have hends := h.ends
      rw [finish_done] at hends
      exact ⟨hends, hv, ha, fun _ _ ho => ho⟩
    | none =>
      have hlt : (Batch.step o (ps i) s v).1.rank < s.rank := rank_step_lt o (ps i) hs v
      obtain ⟨hk, hak⟩ := step_keeps hv o (ps i) s v.files
      obtain ⟨hends, hf, ha', ho⟩ := ih _ hlt (h.step hu hw hv ha) hk (hak.symm.trans ha) rfl
      rw [finish_step]
      exact ⟨hends, hf, ha', fun j hij hj => ho j hij (othersWrote_step h hij hj)⟩

private theorem due_unread (h : OthersWrote o ps w.files w.limit i v.files) :
    Stage.unread.Due o ps w i v.files :=
  ⟨rfl, trivial, .inr h⟩

private theorem run_cons (o : BatchOptions) (p : Path) (ps : List Path) (v : World) :
    (run o (p :: ps) v).1 =
      result p (process o p v).1 :: (run o ps (process o p v).2).1 := rfl

/-- One after another: the files before have been written, those after have not. -/
theorem run_fst (ps : List Path) (hu : ∀ i, Undisturbed o ps.get w.files w.limit i)
    (hw : w.engine.Faithful) (k : ℕ) (hv : v.engine.Faithful) (ha : Alike v.engine w.engine)
    (ho : ∀ i : Fin ps.length, k ≤ i → OthersWrote o ps.get w.files w.limit i v.files) :
    (run o (ps.drop k) v).1 = (ps.drop k).map fun p => result p (process o p w).1 := by
  induction hd : ps.length - k generalizing k v with
  | zero =>
    rw [List.drop_eq_nil_of_le (by omega)]
    rfl
  | succ d ih =>
    have hk : k < ps.length := by omega
    have hdrop : ps.drop k = ps.get ⟨k, hk⟩ :: ps.drop (k + 1) := List.drop_eq_getElem_cons hk
    have hdue : Stage.unread.Due o ps.get w ⟨k, hk⟩ v.files := due_unread (ho ⟨k, hk⟩ le_rfl)
    obtain ⟨hr, hf, ha', hfiles⟩ := hdue.finish (hu ⟨k, hk⟩) hw hv ha
    rw [hdrop, run_cons, List.map_cons, process, hr]
    congr 1
    apply ih (k + 1) hf ha' _ (by omega)
    intro i hi
    apply hfiles i _ (ho i (by omega))
    rintro rfl
    exact absurd hi (by simp)

def Worker.result? : Worker → Option (Except EngineError FileResult)
  | .idle s => s.result?
  | .busy _ => none

/-- The results in the order of the files, once all are there. -/
def Crew.results? (ps : Fin n → Path) (c : Crew n) : Option (List FileResult) :=
  (List.finRange n).mapM fun i => (c.workers i).result?.map (result (ps i))

private theorem mapM_eq_some {α β : Type} {f : α → Option β} {g : α → β} (h : ∀ a, f a = some (g a))
    (l : List α) : l.mapM f = some (l.map g) := by
  induction l with
  | nil => rfl
  | cons a l ih =>
    rw [List.mapM_cons, h, ih]
    rfl

theorem Crew.results?_of_done {ps : List Path} {c : Crew ps.length}
    (h : ∀ i, c.workers i = .idle (.done (process o (ps.get i) w).1)) :
    c.results? ps.get = some (ps.map fun p => result p (process o p w).1) := by
  let alone (p : Path) : FileResult := result p (process o p w).1
  have hi (i : Fin ps.length) :
      (c.workers i).result?.map (result (ps.get i)) = some ((alone ∘ ps.get) i) := by
    rw [h i]
    rfl
  rw [results?, mapM_eq_some hi, ← List.map_map, List.map_get_finRange]

section inPlace
variable {files t : FileTree} {limit : Nat} {p : Path} {q : List Text} {places : Set (List Text)}

/-- The path leads to the file in a place. -/
def LeadsTo (files : FileTree) (p : Path) (q : List Text) : Prop :=
  ∃ x l, files.lookup true p = .ok (.entry q (.file x) l)

theorem Readable.leadsTo (h : Readable files limit p) : ∃ q, LeadsTo files p q := by
  obtain ⟨html, h⟩ := h
  unfold readHtml FileTree.read FileTree.get at h
  rcases hl : files.lookup true p with f | (⟨q, _ | _ | _, l⟩ | _) <;> simp only [hl] at h
  · cases h
  · exact ⟨q, _, l, hl⟩
  · split at h <;> cases h
  · split at h <;> cases h
  · cases h

/-- Trees with the same working directory that differ in the contents of some files. -/
structure SameBut (places : Set (List Text)) (files t : FileTree) : Prop where
  here : t.here = files.here
  root : Rewritten places files.root t.root

theorem SameBut.lookup (h : SameBut places files t) (p : Path) :
    Found.Agree places (files.lookup true p) (t.lookup true p) := by
  unfold FileTree.lookup start
  rw [h.here]
  split
  · exact rfl
  · exact find_agree h.root true maxLinks _ p.pieces

theorem SameBut.leadsTo (h : SameBut places files t) (hp : LeadsTo files p q) : LeadsTo t p q := by
  obtain ⟨x, l, hx⟩ := hp
  have ha := h.lookup p
  rw [hx] at ha
  rcases ht : t.lookup true p with f | (⟨q', _ | _ | _, l'⟩ | _) <;> rw [ht] at ha
  · exact ha.elim
  · obtain ⟨rfl, rfl, -⟩ := ha
    exact ⟨_, _, ht⟩
  · exact ha.2.2.elim
  · exact ha.2.2.elim
  · exact ha.elim

/-- What is read changes only with the content of the file itself. -/
theorem SameBut.readHtml (h : SameBut places files t) (hp : ∀ q, LeadsTo files p q → q ∉ places) :
    readHtml t limit p = readHtml files limit p := by
  have ha := h.lookup p
  unfold Batch.readHtml FileTree.read FileTree.get
  rcases hf : files.lookup true p with f | (⟨q, x, l⟩ | ⟨q, m⟩) <;>
    rcases ht : t.lookup true p with f' | (⟨q', x', l'⟩ | ⟨q', m'⟩) <;> rw [hf, ht] at ha
  · obtain rfl : f = f' := ha
    rfl
  · exact ha.elim
  · exact ha.elim
  · exact ha.elim
  · obtain ⟨rfl, rfl, hx⟩ := ha
    cases x <;> cases x' <;> first | exact hx.elim | skip
    · obtain rfl := hx.resolve_left (hp q ⟨_, _, hf⟩)
      rfl
    · rfl
    · rfl
  · exact ha.elim
  · exact ha.elim
  · exact ha.elim

/-- In its own place a file is written over, and no other file is touched. -/
theorem SameBut.writeBelow (h : SameBut places files t) (hp : LeadsTo files p q) (hq : q ∈ places)
    (content : ByteArray) :
    (t.writeBelow p content).1 = .ok () ∧ SameBut places files (t.writeBelow p content).2 := by
  obtain ⟨x, l, ht⟩ := h.leadsTo hp
  rw [writeBelow_present ht]
  have hat : t.root.at? q = some (.file x) := by
    unfold FileTree.lookup at ht
    split at ht
    · cases ht
    · exact at?_of_find ht
  exact ⟨rfl, h.here, h.root.trans (rewritten_set hat content hq)⟩

/-- Files that are repaired in their own places do not disturb each other if no two of the paths
lead to one file. -/
theorem undisturbed_inPlace (ho : o.outDir = none)
    (hd : ∀ i j q, LeadsTo files (ps i) q → LeadsTo files (ps j) q → i = j) (i : Fin n) :
    Undisturbed o ps files limit i := by
  have target_eq (p : Path) : target o p = p := by simp [target, ho]
  have same {t : FileTree} (h : OthersWrote o ps files limit i t) :
      SameBut {q | ∃ j ≠ i, LeadsTo files (ps j) q} files t := by
    induction h with
    | nothing => exact ⟨rfl, .refl _ _⟩
    | write h hj hf hr content ih =>
      obtain ⟨q, hq⟩ := hr.leadsTo
      rw [target_eq]
      exact (ih.writeBelow hq ⟨_, hj, hq⟩ content).2
  constructor
  · intro t h
    refine (same h).readHtml fun q hq hmem => ?_
    obtain ⟨j, hj, hjq⟩ := hmem
    exact hj (hd j i q hjq hq)
  · intro hr t h content
    obtain ⟨q, hq⟩ := hr.leadsTo
    have hs : SameBut Set.univ files t :=
      ⟨(same h).here, fun r => ((same h).root r).mono fun _ => trivial⟩
    have hs₀ : SameBut Set.univ files files := ⟨rfl, .refl _ _⟩
    rw [target_eq, (hs.writeBelow hq trivial content).1, (hs₀.writeBelow hq trivial content).1]

end inPlace

private theorem exists_of_mapM_eq_some {α β : Type} {f : α → Option β} {l : List α} {bs : List β}
    (h : l.mapM f = some bs) {a : α} (ha : a ∈ l) : ∃ b, f a = some b := by
  induction l generalizing bs with
  | nil => cases ha
  | cons x l ih =>
    rw [List.mapM_cons] at h
    cases hx : f x with
    | none =>
      rw [hx] at h
      cases h
    | some b =>
      cases hl : l.mapM f with
      | none =>
        rw [hx, hl] at h
        cases h
      | some cs =>
        rcases List.mem_cons.1 ha with rfl | ha
        · exact ⟨b, hx⟩
        · exact ih hl ha

theorem Crew.OnCourse.results? {ps : List Path} {c : Crew ps.length} (h : c.OnCourse o ps.get w)
    {rs : List FileResult} (hr : c.results? ps.get = some rs) :
    rs = ps.map fun p => result p (process o p w).1 := by
  have hdone (i : Fin ps.length) : c.workers i = .idle (.done (process o (ps.get i) w).1) := by
    obtain ⟨r, hi⟩ := exists_of_mapM_eq_some hr (List.mem_finRange i)
    have hdue := h.due i
    cases hw : c.workers i with
    | busy work => simp [hw, Worker.result?] at hi
    | idle s =>
      cases s with
      | done r =>
        rw [hw] at hdue
        rw [← hdue.ends, finish_done]
      | _ => simp [hw, Worker.result?, Stage.result?] at hi
  exact Option.some.inj (hr.symm.trans (Crew.results?_of_done hdone))

end Batch

namespace BatchSummary

private theorem counts_ofResults (rs : List FileResult) :
    (ofResults rs).valid + (ofResults rs).invalid + (ofResults rs).failed =
      (ofResults rs).total := by
  have one (st : FileStatus) : (if st.isValid then 1 else 0) + (if st.isInvalid then 1 else 0) +
      (if st.isFailed then 1 else 0) = 1 := by
    cases st <;> rfl
  simp only [ofResults]
  induction rs with
  | nil => rfl
  | cons r rs ih =>
    have hr := one r.status
    simp only [List.countP_cons, List.length_cons]
    omega

private theorem hasErrors_ofResults (rs : List FileResult) :
    (ofResults rs).hasErrors = true ↔ ∃ r ∈ rs, r.status.isValid = false := by
  have hv (st : FileStatus) :
      st.isValid = false ↔ st.isFailed = true ∨ st.isInvalid = true := by
    cases st <;> simp [FileStatus.isValid, FileStatus.isInvalid, FileStatus.isFailed]
  simp only [hasErrors, ofResults, Bool.or_eq_true, decide_eq_true_eq, List.countP_pos_iff, hv]
  constructor
  · rintro (⟨r, hr, h⟩ | ⟨r, hr, h⟩)
    · exact ⟨r, hr, .inl h⟩
    · exact ⟨r, hr, .inr h⟩
  · rintro ⟨r, hr, h | h⟩
    · exact .inl ⟨r, hr, h⟩
    · exact .inr ⟨r, hr, h⟩

end BatchSummary

namespace Batch
open Engine

/-- Every schedule that lets all results come about gives each file the result it would have had
alone, and every fair schedule does let them. -/
theorem results_any_schedule {s : Settings} {e₀ : Engine} (h : Engine.new s = .ok e₀)
    (ops : List Operation) (o : BatchOptions) (ps : List Path) (files : FileTree)
    (hu : ∀ i, Undisturbed o ps.get files (e₀.after ops).settings.maxFileSize i) :
    let e := e₀.after ops
    let alone := ps.map fun p => result p (process o p ⟨e.renewed, files⟩).1
    (∀ σ k rs, (Crew.after o ps.get ⟨e, files⟩ σ k).results? ps.get = some rs → rs = alone) ∧
      (∀ σ, Fair σ → ∃ m, ∀ k ≥ m,
        (Crew.after o ps.get ⟨e, files⟩ σ k).results? ps.get = some alone) ∧
      (run o ps ⟨e, files⟩).1 = alone ∧
      ∀ rs, let b := BatchSummary.ofResults rs
        b.valid + b.invalid + b.failed = b.total ∧
          (b.hasErrors = true ↔ ∃ r ∈ rs, r.status.isValid = false) := by
  intro e alone
  have he : e.Faithful := by
    unfold Engine.new at h
    split at h
    · exact absurd h nofun
    · obtain rfl := Except.ok.inj h
      exact (faithful_build s).after ops
  let v : World := ⟨e, files⟩
  let w : World := ⟨e.renewed, files⟩
  have hw : w.engine.Faithful := faithful_renewed e
  refine ⟨fun σ k rs hr => ?_, fun σ hσ => ?_, ?_, fun rs => ?_⟩
  · exact (Crew.onCourse_after (v := v) (w := w) he (alike_renewed e) rfl hu hw σ k).results? hr
  · obtain ⟨m, hm⟩ := Crew.finishes (v := v) (w := w) he (alike_renewed e) rfl hu hw hσ
    exact ⟨m, fun k hk => Crew.results?_of_done (hm k hk)⟩
  · exact run_fst (v := v) (w := w) ps hu hw 0 he (alike_renewed e) fun _ _ => .nothing
  · exact ⟨BatchSummary.counts_ofResults rs, BatchSummary.hasErrors_ofResults rs⟩

section examples

/-- Two files, one of them in a directory that has the name of the other. -/
def twoFiles (content : ByteArray) : FileTree where
  root := .directory [(['x'], .file content),
    (['b'], .directory [(['x'], .directory [(['y'], .file content)])])]

def twoPaths : List Path := [.ofString "b/../x", .ofString "b/x/y"]

/-- The two workers in turn. -/
def inTurn (k : ℕ) : Move 2 := .file ⟨k % 2, Nat.mod_lt k Nat.two_pos⟩

private theorem fair_inTurn : Fair inTurn := by
  intro i k
  refine ⟨2 * k + i, by omega, ?_⟩
  have hi : (2 * k + i) % 2 = i := by omega
  simp only [inTurn, hi]

theorem leadsTo_twoPaths (content : ByteArray) (i : Fin 2) {q : List Text}
    (h : LeadsTo (twoFiles content) (twoPaths.get i) q) :
    q = [[['x']], [['b'], ['x'], ['y']]].get i := by
  obtain ⟨x, l, h⟩ := h
  have h₀ : (twoFiles content).lookup true (.ofString "b/../x") =
      .ok (.entry [['x']] (.file content) 40) := by cbv
  have h₁ : (twoFiles content).lookup true (.ofString "b/x/y") =
      .ok (.entry [['b'], ['x'], ['y']] (.file content) 40) := by cbv
  have hi : i = 0 ∨ i = 1 := (by decide : ∀ j : Fin 2, j = 0 ∨ j = 1) i
  rcases hi with rfl | rfl
  · cases h₀.symm.trans h; rfl
  · cases h₁.symm.trans h; rfl

/-- Two files are repaired in their own places by an engine that has seen one of them before. -/
theorem results_any_schedule_inTurn :
    let html := "<p>x</p>".toList
    let files := twoFiles (Text.toBytes html)
    let e := (build {}).after [.validate html, .wait second]
    Engine.new {} = .ok (build {}) ∧
      (∀ i : Fin 2, Undisturbed { fix := true } twoPaths.get files e.settings.maxFileSize i) ∧
      ∃ m, ∀ k ≥ m,
        (Crew.after { fix := true } twoPaths.get ⟨e, files⟩ inTurn k).results? twoPaths.get =
          some (twoPaths.map fun p =>
            result p (process { fix := true } p ⟨e.renewed, files⟩).1) := by
  intro html files e
  have hu (i : Fin 2) :
      Undisturbed { fix := true } twoPaths.get files e.settings.maxFileSize i := by
    refine undisturbed_inPlace rfl (fun i j q hi hj => ?_) i
    have hij := (leadsTo_twoPaths _ i hi).symm.trans (leadsTo_twoPaths _ j hj)
    clear hi hj
    revert i j
    decide
  exact ⟨by rfl, hu,
    (results_any_schedule (s := {}) (by rfl) _ _ twoPaths _ hu).2.1 inTurn fair_inTurn⟩

section repaired
variable {p : Path} {html : Text} {outcome : Repair.Outcome} {e : Engine} {files : FileTree}

theorem step_read (hd : e.disposed = false)
    (hr : readHtml files e.settings.maxFileSize p = .ok html) :
    step o p .unread ⟨e, files⟩ = (.loaded html, ⟨e, files⟩) := by
  rw [step_unread, readHtml_currentSettings, hd, hr]
  rfl

theorem step_repair (hf : o.fix = true) (ho : (e.repair html).1 = .ok outcome) :
    step o p (.loaded html) ⟨e, files⟩ = (.repaired outcome, ⟨(e.repair html).2, files⟩) := by
  rw [step, if_pos hf, withEngine]
  dsimp only
  rcases hx : e.repair html with ⟨r, e'⟩
  rw [hx] at ho
  subst ho
  rfl

theorem process_repaired (hf : o.fix = true) (he : e.Faithful) (hd : e.disposed = false)
    (hr : readHtml files e.settings.maxFileSize p = .ok html)
    (ho : (e.repair html).1 = .ok outcome) (hc : outcome.changed = true) :
    ∃ e' : Engine, e'.Faithful ∧ Alike e e' ∧
      process o p ⟨e, files⟩ =
        finish o p
          (.ofWrite outcome (target o p)
            (files.writeBelow (target o p) (Text.toBytes outcome.html)).1)
          ⟨e', (files.writeBelow (target o p) (Text.toBytes outcome.html)).2⟩ := by
  refine ⟨(e.repair html).2, he.repairWith html _ _, ?_, ?_⟩
  · rw [show e.repair html = e.repairWith html fun _ => true from rfl, ← run_repairWith]
    exact alike_run _ e
  · rw [process, finish_step, step_read hd hr]
    dsimp only
    rw [finish_step, step_repair hf ho]
    dsimp only
    rw [finish_step, step_repaired, if_pos hc]

theorem process_written (hf : o.fix = true) (hn : o.compat = false) (he : e.Faithful)
    (hd : e.disposed = false) (hr : readHtml files e.settings.maxFileSize p = .ok html)
    (ho : (e.repair html).1 = .ok outcome) (hc : outcome.changed = true)
    (hw : (files.writeBelow (target o p) (Text.toBytes outcome.html)).1 = .ok ()) :
    (process o p ⟨e, files⟩).2.files =
        (files.writeBelow (target o p) (Text.toBytes outcome.html)).2 ∧
      (result p (process o p ⟨e, files⟩).1).writtenTo = some (target o p) := by
  obtain ⟨e', he', ha', hp⟩ := process_repaired hf he hd hr ho hc
  have hv := he'.validate_fst (ha'.disposed.symm.trans hd) outcome.html
  rcases hx : e'.validate outcome.html with ⟨r, e''⟩
  rw [hx] at hv
  subst hv
  rw [hp, hw, finish_step]
  simp only [Stage.ofWrite, step, withEngine, hx]
  rw [finish_step]
  simp only [step, hn, Bool.false_eq_true, if_false, finish_done]
  exact ⟨trivial, rfl⟩

private theorem process_refused {f : FileFault} (hf : o.fix = true) (he : e.Faithful)
    (hd : e.disposed = false) (hr : readHtml files e.settings.maxFileSize p = .ok html)
    (ho : (e.repair html).1 = .ok outcome) (hc : outcome.changed = true)
    (hw : (files.writeBelow (target o p) (Text.toBytes outcome.html)).1 = .error f) :
    (result p (process o p ⟨e, files⟩).1).writtenTo = none := by
  obtain ⟨e', -, -, hp⟩ := process_repaired hf he hd hr ho hc
  rw [hp, hw, Stage.ofWrite, finish_done]
  rfl

end repaired

/-- A rule that takes blanks off the ends of a document. -/
def trimmer : Rule where
  info :=
    { name := "trim", displayName := "Trim", severity := .info, category := .bestPractice,
      fixable := true }
  check _ _ := .done []
  fix := some fun s => .done (Text.trim s.html)

/-- The built-in rules are removed, and the trimmer is added. -/
def onlyTrimmer : List Operation :=
  builtinRules.map (fun r => .removeRule r.name) ++ [.addRule trimmer]

def onePass : Settings := { repair := { maxPasses := 1 } }

set_option maxRecDepth 10000 in
theorem registry_onlyTrimmer : ((build onePass).after onlyTrimmer).registry = ⟨[], [trimmer]⟩ := rfl

private theorem accepts_trimmer : Repair.Accepts onePass trimmer " x".toList "x".toList :=
  ⟨rfl, by decide +kernel, rfl, by decide, Repair.keepsWhole_of_not_mem (by decide) (by decide)⟩

theorem repair_trimmer {e : Engine} (he : e.Faithful)
    (ha : Alike ((build onePass).after onlyTrimmer) e) :
    ∃ outcome, (e.repair " x".toList).1 = .ok outcome ∧ outcome.changed = true := by
  have hset : e.settings = onePass := ha.settings.symm
  have hreg : e.registry = ⟨[], [trimmer]⟩ := ha.registry.symm.trans registry_onlyTrimmer
  have hd : e.disposed = false := ha.disposed.symm
  have hseq : Repair.sequence ⟨[], [trimmer]⟩ onePass (fun _ => true) = [trimmer] := by
    have hen : onePass.enables trimmer.info = true := by decide +kernel
    have hf : trimmer.info.fixable = true := rfl
    simp [Repair.sequence, Repair.byName, Repair.fixOrder, hen, hf]
  have hadm : Repair.admits onePass [trimmer] " x".toList = true := by decide +kernel
  let start : Repair.Progress := ⟨⟨" x".toList, []⟩, 0, true, 0, 0, e.workshop⟩
  let q := start.pass .steady onePass (Repair.growthCeiling onePass.repair 2) [trimmer]
  obtain ⟨-, hc, -⟩ : q.html = "x".toList ∧ q.changed = ["trim"] ∧ q.withinBounds = true :=
    Repair.Progress.pass_accepted (c := .steady) (p := start) he.workshop accepts_trimmer
      (by decide +kernel)
  have hrun : Repair.run onePass [trimmer] " x".toList e.workshop = start.advanced q :=
    (Repair.run_of_admitted hadm).trans
      (Repair.passes_of_changed 0 (ne_of_eq_of_ne hc (List.cons_ne_nil _ _)))
  refine ⟨(start.advanced q).outcome, ?_, ?_⟩
  · rw [Engine.repair, Engine.repairWith, whenActive_fst hd]
    dsimp only
    rw [hset, hreg, hseq, Repair.Ledger.repair_fst, hrun]
  · simp [Repair.Outcome.changed, Repair.Progress.advanced, hc, Repair.addNew, start]

theorem readHtml_of_get {files : FileTree} {p : Path} {html : Text} {limit : Nat}
    (h : files.get p = .ok (.file (Text.toBytes html)))
    (hs : (Text.toBytes html).size ≤ limit) : readHtml files limit p = .ok html := by
  have hb : Text.ofBytes? (Text.toBytes html) = some html := by
    have hv : (Text.toBytes html).IsValidUTF8 := (String.ofList html).isValidUTF8
    rw [Text.ofBytes?, String.fromUTF8?, dif_pos hv]
    exact congrArg some (String.toList_ofList)
  simp [readHtml, FileTree.read, h, FileEntry.size, hb, Nat.not_lt.2 hs]

def copying : BatchOptions := { fix := true, outDir := some (.ofString "out") }

section copies
variable (content copy copy' : ByteArray)

theorem get_twoFiles :
    (twoFiles content).get (.ofString "b/../x") = .ok (.file content) ∧
      (twoFiles content).get (.ofString "b/x/y") = .ok (.file content) :=
  ⟨by cbv, by cbv⟩

theorem target_twoPaths :
    target copying (.ofString "b/../x") = .ofString "out/b/x" ∧
      target copying (.ofString "b/x/y") = .ofString "out/b/x/y" :=
  ⟨by cbv, by cbv⟩

theorem write_either :
    ((twoFiles content).writeBelow (.ofString "out/b/x") copy).1 = .ok () ∧
      ((twoFiles content).writeBelow (.ofString "out/b/x/y") copy).1 = .ok () :=
  ⟨by cbv, by cbv⟩

private theorem write_both :
    let t := ((twoFiles content).writeBelow (.ofString "out/b/x") copy).2
    t.get (.ofString "b/x/y") = .ok (.file content) ∧
      (t.writeBelow (.ofString "out/b/x/y") copy').1 = .error .exists_ :=
  ⟨by cbv, by cbv⟩

end copies

/-- One of two files whose repaired copies collide is not written after the other. -/
theorem copies_collide {e : Engine} {html : Text} (he : e.Faithful) (hd : e.disposed = false)
    (hs : (Text.toBytes html).size ≤ e.settings.maxFileSize)
    (hc : ∀ e' : Engine, e'.Faithful → Alike e e' →
      ∃ outcome, (e'.repair html).1 = .ok outcome ∧ outcome.changed = true) :
    (run copying twoPaths ⟨e, twoFiles (Text.toBytes html)⟩).1 ≠
      twoPaths.map fun p =>
        result p (process copying p ⟨e.renewed, twoFiles (Text.toBytes html)⟩).1 := by
  let files := twoFiles (Text.toBytes html)
  let p := Path.ofString "b/../x"
  let q := Path.ofString "b/x/y"
  obtain ⟨hgp, hgq⟩ := get_twoFiles (Text.toBytes html)
  obtain ⟨htp, htq⟩ := target_twoPaths
  have halone : (result q (process copying q ⟨e.renewed, files⟩).1).writtenTo =
      some (target copying q) := by
    obtain ⟨out, ho, hch⟩ := hc _ (faithful_renewed e) (alike_renewed e)
    refine (process_written rfl rfl (faithful_renewed e) hd (readHtml_of_get hgq hs) ho hch ?_).2
    rw [htq]
    exact (write_either _ _).2
  have hafter : (result q (process copying q (process copying p ⟨e, files⟩).2).1).writtenTo =
      none := by
    obtain ⟨out, ho, hch⟩ := hc e he (.refl e)
    obtain ⟨hfiles, -⟩ := process_written (o := copying) rfl rfl he hd (readHtml_of_get hgp hs) ho
      hch (htp ▸ (write_either _ _).1)
    rw [htp] at hfiles
    obtain ⟨hk, hak⟩ := finish_keeps (v := ⟨e, files⟩) he copying p .unread
    obtain ⟨out', ho', hch'⟩ := hc _ hk hak
    obtain ⟨hg, hw⟩ := write_both (Text.toBytes html) (Text.toBytes out.html)
      (Text.toBytes out'.html)
    rw [← hfiles] at hg hw
    exact process_refused (f := .exists_) rfl hk (hak.disposed.symm.trans hd)
      (readHtml_of_get hg (hak.settings ▸ hs)) ho' hch' (htq ▸ hw)
  intro h
  have hsecond : (result q (process copying q (process copying p ⟨e, files⟩).2).1).writtenTo =
      (result q (process copying q ⟨e.renewed, files⟩).1).writtenTo :=
    congrArg FileResult.writtenTo (List.cons.inj (List.cons.inj h).2).1
  rw [hafter, halone] at hsecond
  exact absurd hsecond nofun

/-- Two files may get in each other's way though neither is written to the path or the target of the
other. -/
theorem results_disturbed :
    let e := (build onePass).after onlyTrimmer
    let files := twoFiles (Text.toBytes " x".toList)
    (∀ p ∈ twoPaths, ∀ q ∈ twoPaths, p ≠ q →
      target copying p ≠ q ∧ target copying p ≠ target copying q) ∧
      twoPaths.Nodup ∧
      (run copying twoPaths ⟨e, files⟩).1 ≠
        twoPaths.map fun p => result p (process copying p ⟨e.renewed, files⟩).1 := by
  intro e files
  refine ⟨by decide +kernel, by decide +kernel, ?_⟩
  exact copies_collide ((faithful_build onePass).after onlyTrimmer) rfl (by decide +kernel)
    fun e' he' ha' => repair_trimmer he' ha'

end examples

end Batch
end MailMarkup
