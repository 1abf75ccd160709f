import MailMarkup.Proofs.Batch.Scheduling
import MailMarkup.Proofs.Files.Room

/-!
# Copies of repaired files

The copy of a file goes to the place under the directory for copies that the names in the path of
the file spell. So the copies of two files have one path exactly if the paths of the files have the
same names, as paths may have that differ in their steps up, or one of which is absolute. As long as
the names differ, no copy is written over by another, whatever the schedule. Files are undisturbed
by each other as soon as there is room for all copies, and none is on the way to another.
-/
namespace MailMarkup

namespace Path
variable {p q dir : Path} {t : FileTree} {x : ByteArray}

/-- The names in a path. -/
def names (p : Path) : List Step := p.steps.filter Step.isName

/-- There is no step up, and no point to start with. -/
def IsStraight (p : Path) : Prop := .up ∉ p.steps ∧ .here ∉ p.steps

theorem steps_of_isStraight (hp : p.IsStraight) :
    p.steps = (if p.isAbsolute then [.root] else []) ++ p.names := by
  obtain ⟨hup, hhere⟩ := hp
  rw [steps_eq, List.mem_append, not_or] at hup hhere
  have hlead : p.lead = if p.isAbsolute then [.root] else [] := by
    rw [lead] at hhere ⊢
    split
    · rfl
    · refine if_neg fun h => hhere.1 ?_
      rw [if_neg ‹_›, if_pos h]
      exact List.mem_singleton.2 rfl
  have hnames : ∀ s ∈ p.pieces.filterMap Step.ofPiece?, s.isName = true := by
    intro s hs
    obtain ⟨piece, -, hpiece⟩ := List.mem_filterMap.1 hs
    rw [Step.ofPiece?] at hpiece
    split at hpiece
    · cases hpiece
    · split at hpiece <;> cases hpiece
      · exact absurd hs hup.2
      · rfl
  have hnone : p.lead.filter Step.isName = [] := by
    rw [hlead]
    split <;> rfl
  rw [names, steps_eq, List.filter_append, hnone, List.filter_eq_self.2 hnames, ← hlead]
  rfl

private theorem same_iff_names (hp : p.IsStraight) (hq : q.IsStraight)
    (habs : p.isAbsolute = q.isAbsolute) : p.same q = true ↔ p.names = q.names := by
  rw [same, beq_iff_eq, steps_of_isStraight hp, steps_of_isStraight hq, habs,
    List.append_cancel_left_eq]

theorem same_copyUnder :
    (dir.copyUnder p).same (dir.copyUnder q) = true ↔ p.names = q.names := by
  rw [same, beq_iff_eq, steps_copyUnder, steps_copyUnder, List.append_cancel_left_eq, names, names]

private theorem names_ne_nil (h : t.read p = .ok x) : p.names ≠ [] := by
  intro hnil
  have hnames : ∀ piece ∈ p.pieces, ∀ m, Step.ofPiece? piece ≠ some (.name m) := by
    intro piece hpiece m hm
    have hmem : .name m ∈ p.steps :=
      List.mem_append_right _ (List.mem_filterMap.2 ⟨piece, hpiece, hm⟩)
    exact List.filter_eq_nil_iff.1 hnil _ hmem rfl
  rw [FileTree.read, FileTree.get] at h
  rcases hl : t.lookup true p with f | (⟨q, e, l⟩ | ⟨q, m⟩) <;> simp only [hl] at h
  · cases h
  · rw [FileTree.lookup] at hl
    split at hl
    · cases hl
    · obtain ⟨es, rfl⟩ := FileTree.directory_of_find hnames (absurd · p.pieces_ne_nil) hl
      cases h
  · cases h

private theorem getLast?_pieces_join (hq : q.isAbsolute = false) :
    (p.join q).pieces.getLast? = q.pieces.getLast? := by
  have hslash (t u : Text) : (pieces ⟨t ++ '/' :: u⟩).getLast? = (pieces ⟨u⟩).getLast? := by
    rw [pieces_append, List.getLast?_append_of_ne_nil _ (pieces_ne_nil _)]
  rw [join, hq]
  obtain ⟨t⟩ := p
  simp only [Bool.false_eq_true, if_false]
  split
  · rcases List.eq_nil_or_concat t with rfl | ⟨t, c, rfl⟩
    · rfl
    · rename_i h
      obtain rfl : c = '/' := by simpa using h
      rw [List.concat_eq_append, List.append_assoc]
      exact hslash t q.text
  · exact hslash t q.text

private theorem getLast?_pieces_copyUnder (hp : p.names ≠ []) :
    (dir.copyUnder p).pieces.getLast? ≠ some [] := by
  obtain ⟨ns, hns, hnames⟩ := exists_names p
  have hne : ns ≠ [] := by
    rintro rfl
    exact hp hns
  have hlead := (steps_ofSteps hnames).1
  have habs : (ofSteps (ns.map .name)).isAbsolute = false := by
    rw [← Bool.not_eq_true]
    intro h
    rw [lead, if_pos h] at hlead
    cases hlead
  rw [copyUnder, hns, getLast?_pieces_join habs, ofSteps_names,
    pieces_ofPieces hne fun n hn => (hnames n hn).noSlash]
  intro hlast
  have hstep := (hnames [] (List.mem_of_getLast? hlast)).step
  cases hstep

theorem lands_copyUnder (t : FileTree) (dir p : Path) :
    ∃ ns : List Text, p.names = ns.map .name ∧ t.lands (dir.copyUnder p) = t.lands dir ++ ns := by
  obtain ⟨ns, hns, -⟩ := exists_names p
  refine ⟨ns, hns, ?_⟩
  rw [FileTree.lands, steps_copyUnder, hns, List.foldl_append, FileTree.lands]
  clear hns
  generalize dir.steps.foldl Step.enter t.here = place
  induction ns generalizing place with
  | nil => exact (List.append_nil place).symm
  | cons n ns ih =>
    rw [List.map_cons, List.foldl_cons, Step.enter, ih, List.append_assoc, List.singleton_append]

private theorem names_prefix_of_lands
    (h : t.lands (dir.copyUnder p) <+: t.lands (dir.copyUnder q)) :
    p.names <+: q.names := by
  obtain ⟨ns, hns, hp⟩ := lands_copyUnder t dir p
  obtain ⟨ms, hms, hq⟩ := lands_copyUnder t dir q
  rw [hp, hq, List.prefix_append_right_inj] at h
  rw [hns, hms]
  exact h.map _

private theorem names_eq_of_lands (h : t.lands (dir.copyUnder p) = t.lands (dir.copyUnder q)) :
    p.names = q.names := by
  obtain ⟨ns, hns, hp⟩ := lands_copyUnder t dir p
  obtain ⟨ms, hms, hq⟩ := lands_copyUnder t dir q
  rw [hp, hq, List.append_cancel_left_eq] at h
  rw [hns, hms, h]

end Path

namespace Batch
open Engine FileTree
variable {n : Nat} {o : BatchOptions} {ps : Fin n → Path} {p dir : Path} {w : World} {i j : Fin n}
  {s s' : Stage} {x : Worker} {c : Crew n} {files files' : FileTree} {html : Text} {q : Path}

/-- What holds of the stage a worker is at, or of every stage that it may come to with what it is
doing. -/
def Worker.All (P : Stage → Prop) : Worker → Prop
  | .idle s => P s
  | .busy work => ∀ s, work.Yields s → P s

/-- A file has been written nowhere but where it is to be written. -/
def Stage.Aimed (o : BatchOptions) (p : Path) : Stage → Prop
  | .unread => True
  | .loaded _ | .repaired _ => p.names ≠ []
  | .ready _ _ place => ∀ q ∈ place, q = target o p
  | .checked _ r => ∀ q ∈ r.writtenTo, q = target o p
  | .done r => ∀ a, r = .ok a → ∀ q ∈ a.writtenTo, q = target o p

/-- What has just been written is read. -/
def Stage.Kept (files : FileTree) : Stage → Prop
  | .ready html _ (some q) => files.read q = .ok (Text.toBytes html)
  | _ => True

private theorem read_of_readHtml {limit : Nat} (h : readHtml files limit p = .ok html) :
    ∃ content, files.read p = .ok content := by
  unfold readHtml at h
  split at h
  · cases h
  · split at h
    · cases h
    · split at h
      · cases h
      · exact ⟨_, ‹_›⟩

theorem Stage.aimed_failed (o : BatchOptions) (p : Path) (err : EngineError) :
    (Stage.done (.error err)).Aimed o p := by
  rintro _ ⟨⟩

theorem Stage.aimed_ready (o : BatchOptions) (p : Path) (html : Text) (fixed : List String) :
    (Stage.ready html fixed none).Aimed o p := by
  rintro _ ⟨⟩

theorem Stage.Aimed.step (h : s.Aimed o p) (w : World) : (step o p s w).1.Aimed o p := by
  cases s with
  | unread =>
    rw [Batch.step]
    split
    · exact Stage.aimed_failed o p _
    · split
      · exact Stage.aimed_failed o p _
      · rename_i hread
        obtain ⟨content, hcontent⟩ := read_of_readHtml hread
        exact Path.names_ne_nil hcontent
  | loaded html =>
    rw [Batch.step, withEngine]
    split
    · split
      · exact h
      · exact Stage.aimed_failed o p _
    · exact Stage.aimed_ready o p _ _
  | repaired outcome =>
    rw [step_repaired o p outcome w.engine w.files]
    split
    · dsimp only
      cases (w.files.writeBelow (target o p) (Text.toBytes outcome.html)).1 with
      | error f => exact Stage.aimed_failed o p _
      | ok u => exact fun q hq => (Option.some.inj hq).symm
    · exact Stage.aimed_ready o p _ _
  | ready html fixed place =>
    rw [Batch.step, withEngine]
    split
    · exact h
    · exact Stage.aimed_failed o p _
  | checked html r =>
    rw [Batch.step, withEngine]
    split
    · split
      · rintro _ ⟨⟩
        exact h
      · exact Stage.aimed_failed o p _
    · rintro _ ⟨⟩
      exact h
  | done r => exact h

/-- What comes of a step with the engine is aimed as before, and nothing has been written. -/
theorem Stage.Aimed.leads (h : s.Aimed o p) (hs : s.Leads o p s') :
    s'.Aimed o p ∧ ∀ files, s'.Kept files := by
  cases hs with
  | repaired => exact ⟨h, fun _ => trivial⟩
  | checked => exact ⟨h, fun _ => trivial⟩
  | compared =>
    refine ⟨?_, fun _ => trivial⟩
    rintro _ ⟨⟩
    exact h
  | failed err => exact ⟨Stage.aimed_failed o p err, fun _ => trivial⟩

theorem Stage.Leads.filed (hs : s.Leads o p s') (h : s.filed = true) : s'.filed = true := by
  cases hs with
  | repaired => cases h
  | checked => rfl
  | compared => rfl
  | failed => rfl

theorem Worker.All.advance {P : Stage → Prop} (h : x.All P) (o : BatchOptions) (p : Path)
    (w : World) (hstep : ∀ s, P s → P (step o p s w).1)
    (hleads : ∀ s s', P s → s.Leads o p s' → P s') :
    (x.advance o p w).1.All P := by
  cases x with
  | idle s =>
    rw [Worker.advance]
    split
    · rename_i work hc
      exact fun s' hs => hleads s s' h (leads_of_calls hc hs)
    · exact hstep s h
  | busy work =>
    cases work with
    | done s => exact h s rfl
    | step q next => exact fun s hs => h s ⟨_, hs⟩

private theorem Worker.aimed_advance (h : x.All (Stage.Aimed o p)) (w : World) :
    (x.advance o p w).1.All (Stage.Aimed o p) :=
  h.advance o p w (fun _ h => h.step w) fun _ _ h hs => (h.leads hs).1

private theorem Worker.filed_advance (h : x.All (·.filed = true)) (o : BatchOptions) (p : Path)
    (w : World) : (x.advance o p w).1.All (·.filed = true) :=
  h.advance o p w (fun _ h => filed_step h o p w) fun _ _ h hs => hs.filed h

theorem files_advance (o : BatchOptions) (p : Path) (x : Worker) (w : World) :
    (x.advance o p w).2.files = w.files ∨
      ∃ outcome content, x = .idle (.repaired outcome) ∧
        (x.advance o p w).2.files = (w.files.writeBelow (target o p) content).2 := by
  cases x with
  | idle s =>
    rw [Worker.advance]
    split
    · exact .inl rfl
    · refine (files_step o p s w).imp_right ?_
      rintro ⟨outcome, content, rfl, hf⟩
      exact ⟨outcome, content, rfl, hf⟩
  | busy work => cases work <;> exact .inl rfl

theorem grows_advance (hfiles : w.files.root.Linkless) (o : BatchOptions) (p : Path) (x : Worker) :
    Grows {w.files.lands (target o p)} w.files (x.advance o p w).2.files := by
  rcases files_advance o p x w with h | ⟨outcome, content, -, h⟩
  · rw [h]
    exact .refl _ _
  · rw [h]
    exact grows_writeBelow hfiles _ _

private theorem kept_step (h : s.Aimed o p) (hfiles : w.files.root.Linkless)
    (hdir : o.outDir = some dir) : (step o p s w).1.Kept (step o p s w).2.files := by
  cases s with
  | unread =>
    rw [step]
    split
    · trivial
    · split <;> trivial
  | loaded html =>
    rw [step, withEngine]
    split
    · split <;> trivial
    · trivial
  | repaired outcome =>
    have htarget : target o p = dir.copyUnder p := by rw [target, hdir]
    rw [step_repaired o p outcome w.engine w.files]
    split
    · dsimp only
      cases hw : (w.files.writeBelow (target o p) (Text.toBytes outcome.html)).1 with
      | error f => trivial
      | ok u =>
        refine read_of_writeBelow hfiles ?_ hw
        rw [htarget]
        exact Path.getLast?_pieces_copyUnder h
    · trivial
  | ready html fixed place =>
    rw [step, withEngine]
    split <;> trivial
  | checked html r =>
    rw [step, withEngine]
    split
    · split <;> trivial
    · trivial
  | done r => trivial

private theorem Worker.kept_advance (h : x.All (Stage.Aimed o p)) (hx : x.All (Stage.Kept w.files))
    (hfiles : w.files.root.Linkless) (hdir : o.outDir = some dir) :
    (x.advance o p w).1.All (Stage.Kept (x.advance o p w).2.files) := by
  cases x with
  | idle s =>
    rw [Worker.advance]
    split
    · rename_i work hc
      exact fun s' hs => (Stage.Aimed.leads h (leads_of_calls hc hs)).2 _
    · exact kept_step h hfiles hdir
  | busy work =>
    cases work with
    | done s => exact hx s rfl
    | step q next => exact fun s hs => hx s ⟨_, hs⟩

theorem Crew.aimed_after (o : BatchOptions) (ps : Fin n → Path) (w : World) (σ : ℕ → Move n)
    (k : ℕ) (i : Fin n) : ((Crew.after o ps w σ k).workers i).All (Stage.Aimed o (ps i)) := by
  induction k with
  | zero => exact trivial
  | succ k ih =>
    rw [Crew.after]
    cases σ k with
    | file j =>
      by_cases hj : i = j
      · subst hj
        simpa [Crew.move] using Worker.aimed_advance ih _
      · simpa [Crew.move, Function.update_of_ne hj] using ih
    | wait time => exact ih
    | sweepTrees => exact ih
    | sweepPatterns => exact ih

section apart
variable {places : Set (List Text)}

theorem Stage.Kept.frame (h : s.Kept files) (ha : s.Aimed o p) (hg : Grows places files files')
    (hfiles : files.root.Linkless) (hp : files.lands (target o p) ∉ places) : s.Kept files' := by
  cases s with
  | ready html fixed place =>
    cases place with
    | none => trivial
    | some q =>
      obtain rfl := ha q rfl
      exact hg.read hfiles hp h
  | _ => trivial

private theorem Worker.kept_frame (h : x.All (Stage.Kept files)) (ha : x.All (Stage.Aimed o p))
    (hg : Grows places files files') (hfiles : files.root.Linkless)
    (hp : files.lands (target o p) ∉ places) : x.All (Stage.Kept files') := by
  cases x with
  | idle s => exact Stage.Kept.frame h ha hg hfiles hp
  | busy work => exact fun s hs => (h s hs).frame (ha s hs) hg hfiles hp

theorem lands_target_ne (hdir : o.outDir = some dir)
    (hps : Function.Injective fun i => (ps i).names) (hij : i ≠ j) (files : FileTree) :
    files.lands (target o (ps i)) ∉ ({files.lands (target o (ps j))} : Set (List Text)) := by
  simp only [target, hdir]
  exact fun h => hij (hps (Path.names_eq_of_lands h))

/-- There are no links among the files, and what a worker has just written is read. -/
structure Crew.Apart (c : Crew n) : Prop where
  linkless : c.world.files.root.Linkless
  kept : ∀ i, (c.workers i).All (Stage.Kept c.world.files)

theorem Crew.Apart.move (h : c.Apart) (ha : ∀ i, (c.workers i).All (Stage.Aimed o (ps i)))
    (hdir : o.outDir = some dir) (hps : Function.Injective fun i => (ps i).names) (m : Move n) :
    (c.move o ps m).Apart := by
  cases m with
  | file j =>
    have hg := grows_advance h.linkless o (ps j) (c.workers j)
    refine ⟨hg.linkless h.linkless, fun i => ?_⟩
    by_cases hij : i = j
    · subst hij
      simpa [Crew.move] using Worker.kept_advance (ha i) (h.kept i) h.linkless hdir
    · simp only [Crew.move, Function.update_of_ne hij]
      exact Worker.kept_frame (h.kept i) (ha i) hg h.linkless (lands_target_ne hdir hps hij _)
  | wait time => exact ⟨h.linkless, h.kept⟩
  | sweepTrees => exact ⟨h.linkless, h.kept⟩
  | sweepPatterns => exact ⟨h.linkless, h.kept⟩

theorem Crew.apart_after (hdir : o.outDir = some dir)
    (hps : Function.Injective fun i => (ps i).names) (hfiles : w.files.root.Linkless)
    (σ : ℕ → Move n) (k : ℕ) : (Crew.after o ps w σ k).Apart := by
  induction k with
  | zero => exact ⟨hfiles, fun _ => trivial⟩
  | succ k ih => exact ih.move (Crew.aimed_after o ps w σ k) hdir hps (σ k)

/-- The copy of a file that has been written. -/
structure Crew.Holds (o : BatchOptions) (ps : Fin n → Path) (c : Crew n) (i : Fin n)
    (content : ByteArray) : Prop where
  read : c.world.files.read (target o (ps i)) = .ok content
  filed : (c.workers i).All (·.filed = true)

theorem Crew.Holds.move {content : ByteArray} (h : c.Holds o ps i content)
    (hfiles : c.world.files.root.Linkless) (hdir : o.outDir = some dir)
    (hps : Function.Injective fun i => (ps i).names) (m : Move n) :
    (c.move o ps m).Holds o ps i content := by
  cases m with
  | file j =>
    by_cases hij : i = j
    · subst hij
      have hread : ((c.workers i).advance o (ps i) c.world).2.files = c.world.files := by
        refine (files_advance o (ps i) (c.workers i) c.world).resolve_right ?_
        rintro ⟨outcome, content, hx, -⟩
        have hfiled := h.filed
        rw [hx] at hfiled
        cases hfiled
      refine ⟨?_, ?_⟩
      · simp only [Crew.move, hread]
        exact h.read
      · simpa [Crew.move] using Worker.filed_advance h.filed o (ps i) c.world
    · have hg := grows_advance hfiles o (ps j) (c.workers j)
      refine ⟨hg.read hfiles (lands_target_ne hdir hps hij _) h.read, ?_⟩
      simp only [Crew.move, Function.update_of_ne hij]
      exact h.filed
  | wait time => exact ⟨h.read, h.filed⟩
  | sweepTrees => exact ⟨h.read, h.filed⟩
  | sweepPatterns => exact ⟨h.read, h.filed⟩

end apart

section undisturbed
variable {t : FileTree} {limit : Nat}

theorem get_of_read {content : ByteArray} (h : files.read p = .ok content) :
    files.get p = .ok (.file content) := by
  rw [FileTree.read] at h
  split at h
  · rename_i hget
    rw [hget, Except.ok.inj h]
  · cases h
  · cases h

theorem grows_othersWrote (hfiles : files.root.Linkless)
    (hroom : ∀ i, files.Room (target o (ps i)))
    (hapart : ∀ i j, i ≠ j → ¬files.lands (target o (ps i)) <+: files.lands (target o (ps j)))
    (h : OthersWrote o ps files limit i t) :
    Grows {q | ∃ j ≠ i, q = files.lands (target o (ps j))} files t ∧
      ∀ j, t.Room (target o (ps j)) := by
  induction h with
  | nothing => exact ⟨.refl _ _, hroom⟩
  | @write t j h hj hf hr content ih =>
    obtain ⟨hgrows, hrooms⟩ := ih
    have hroot := hgrows.linkless hfiles
    have hmore := grows_writeBelow hroot (target o (ps j)) content
    refine ⟨hgrows.trans ⟨hmore.here, hmore.root.mono ?_, hmore.linkless⟩, fun k => ?_⟩
    · rintro q - rfl
      exact ⟨j, hj, hgrows.lands _⟩
    · have hsame (k l : Fin n) (h : t.lands (target o (ps k)) <+: t.lands (target o (ps l))) :
          t.lands (target o (ps k)) = t.lands (target o (ps l)) := by
        rw [hgrows.lands, hgrows.lands] at h ⊢
        by_cases hkl : k = l
        · rw [hkl]
        · exact absurd h (hapart k l hkl)
      exact (hrooms j).of_writeBelow (hrooms k) hroot (hsame j k) (hsame k j) content

/-- Files do not disturb each other if there is room for all that is written, none of it is written
on the way to another, and none in the place of another file that is read. -/
theorem undisturbed_of_room (hfiles : files.root.Linkless)
    (hread : ∀ i, ∃ content, files.read (ps i) = .ok content)
    (hroom : ∀ i, files.Room (target o (ps i)))
    (hapart : ∀ i j, i ≠ j → ¬files.lands (target o (ps i)) <+: files.lands (target o (ps j)))
    (hkept : ∀ i j, i ≠ j → files.lands (ps i) ≠ files.lands (target o (ps j))) (i : Fin n) :
    Undisturbed o ps files limit i := by
  constructor
  · intro t h
    obtain ⟨hgrows, -⟩ := grows_othersWrote hfiles hroom hapart h
    obtain ⟨content, hcontent⟩ := hread i
    have hsame : t.read (ps i) = .ok content := by
      refine hgrows.read hfiles ?_ hcontent
      rintro ⟨j, hj, heq⟩
      exact hkept i j (Ne.symm hj) heq
    unfold readHtml
    rw [get_of_read hsame, get_of_read hcontent, hsame, hcontent]
  · intro _ t h content
    obtain ⟨hgrows, hrooms⟩ := grows_othersWrote hfiles hroom hapart h
    obtain ⟨t', ht, -⟩ := (hrooms i).writeBelow (hgrows.linkless hfiles) content
    obtain ⟨t'', hfirst, -⟩ := (hroom i).writeBelow hfiles content
    rw [ht, hfirst]

/-- Copies of files that are not below the directory for copies do not disturb each other if there
is room for them, and the names of no path go on with those of another. -/
theorem undisturbed_copies (hdir : o.outDir = some dir) (hfiles : files.root.Linkless)
    (hread : ∀ i, ∃ content, files.read (ps i) = .ok content)
    (houtside : ∀ i, ¬files.lands dir <+: files.lands (ps i))
    (hroom : ∀ i, files.Room (dir.copyUnder (ps i)))
    (hnames : ∀ i j, i ≠ j → ¬(ps i).names <+: (ps j).names) (i : Fin n) :
    Undisturbed o ps files limit i := by
  have htarget (p : Path) : target o p = dir.copyUnder p := by rw [target, hdir]
  refine undisturbed_of_room hfiles hread (fun i => ?_) (fun i j hij h => ?_)
    (fun i j hij h => ?_) i
  · rw [htarget]
    exact hroom i
  · rw [htarget, htarget] at h
    exact hnames i j hij (Path.names_prefix_of_lands h)
  · obtain ⟨ns, -, hns⟩ := Path.lands_copyUnder files dir (ps j)
    rw [htarget, hns] at h
    exact houtside i (h ▸ List.prefix_append _ _)

/-- Two files next to each other, with copies in a directory that is yet to be made. -/
theorem undisturbed_copies_siblings (content : ByteArray) (i : Fin 2) :
    let files : FileTree := ⟨.directory [(['x'], .file content), (['y'], .file content)], []⟩
    Undisturbed { outDir := some (.ofString "out") } ![.ofString "x", .ofString "y"] files limit
      i := by
  intro files
  have hfile : (FileEntry.file content).Linkless := FileEntry.linkless_file content
  have hway (n : Text) (r : List Text) (hr : r <+: ["out".toList, n])
      (hne : r ≠ ["out".toList, n]) : files.root.Passable r := by
    match r, hr with
    | [], _ => exact .inr ⟨_, rfl⟩
    | [m], hr =>
      obtain rfl : m = "out".toList := (List.cons_prefix_cons.1 hr).1
      exact .inl rfl
    | [m, k], hr => exact absurd (hr.eq_of_length rfl) hne
    | _ :: _ :: _ :: _, hr => exact absurd hr.length_le (by simp)
  have hroom (p : Path) (h : p = .ofString "out/x" ∨ p = .ofString "out/y") : files.Room p := by
    rcases h with rfl | rfl <;>
      exact ⟨by decide +kernel, ⟨_, rfl⟩, by decide +kernel, by decide +kernel, by decide +kernel,
        hway _, .inl rfl⟩
  refine undisturbed_copies rfl (FileEntry.linkless_directory ?_) (fun i => ?_) (fun i => ?_)
    (fun i => ?_) (fun i j hij => ?_) i
  · exact List.forall_mem_cons.2 ⟨hfile, List.forall_mem_singleton.2 hfile⟩
  · fin_cases i <;> exact ⟨content, by cbv⟩
  · fin_cases i <;> exact fun h => absurd (List.cons_prefix_cons.1 h).1 (by decide)
  · fin_cases i
    · exact hroom _ (.inl (by cbv))
    · exact hroom _ (.inr (by cbv))
  · revert i j
    decide +kernel

end undisturbed

/-- The copies of two files have one path exactly if the paths of the files have the same names, and
if both start at the root or neither does and there are no steps up, exactly if the paths are the
same. A batch writes each file to the path of its copy and nowhere else. If the names differ and
there are no links, then whatever the schedule, what has been written for one file is never written
over for another. -/
theorem copies_apart (o : BatchOptions) (dir : Path) (ps : Fin n → Path) (w : World)
    (σ : ℕ → Move n) (hdir : o.outDir = some dir) :
    (∀ p q : Path, (dir.copyUnder p).same (dir.copyUnder q) = true ↔ p.names = q.names) ∧
      (∀ p q : Path, p.IsStraight → q.IsStraight → p.isAbsolute = q.isAbsolute →
        ((dir.copyUnder p).same (dir.copyUnder q) = true ↔ p.same q = true)) ∧
      (∀ k, let files := (Crew.after o ps w σ k).world.files
        let files' := (Crew.after o ps w σ (k + 1)).world.files
        files' = files ∨
          ∃ i content, files' = (files.writeBelow (dir.copyUnder (ps i)) content).2) ∧
      (∀ i k r, ((Crew.after o ps w σ k).workers i).result? = some (.ok r) →
        ∀ q ∈ r.writtenTo, q = dir.copyUnder (ps i)) ∧
      (w.files.root.Linkless → (Function.Injective fun i => (ps i).names) →
        ∀ i k html fixed q,
          (Crew.after o ps w σ k).workers i = .idle (.ready html fixed (some q)) →
            q = dir.copyUnder (ps i) ∧
              ∀ m ≥ k, (Crew.after o ps w σ m).world.files.read q = .ok (Text.toBytes html)) := by
  have htarget (p : Path) : target o p = dir.copyUnder p := by rw [target, hdir]
  refine ⟨fun p q => Path.same_copyUnder, fun p q hp hq habs => ?_, fun k => ?_,
    fun i k r hr q hq => ?_, ?_⟩
  · rw [Path.same_copyUnder, Path.same_iff_names hp hq habs]
  · rw [Crew.after]
    cases σ k with
    | file i =>
      refine (files_advance o (ps i) _ _).imp_right ?_
      rintro ⟨outcome, content, -, h⟩
      exact ⟨i, content, by rw [← htarget]; exact h⟩
    | wait time => exact .inl rfl
    | sweepTrees => exact .inl rfl
    | sweepPatterns => exact .inl rfl
  · have haimed := Crew.aimed_after o ps w σ k i
    cases hx : (Crew.after o ps w σ k).workers i with
    | busy work =>
      rw [hx] at hr
      cases hr
    | idle s =>
      rw [hx] at hr haimed
      obtain rfl := Stage.eq_done hr
      exact (haimed r rfl q hq).trans (htarget _)
  · intro hfiles hps i k html fixed q hx
    have haimed := Crew.aimed_after o ps w σ k i
    have hkept := (Crew.apart_after hdir hps hfiles σ k).kept i
    rw [hx] at haimed hkept
    obtain rfl : q = target o (ps i) := haimed q rfl
    refine ⟨htarget _, fun m hm => ?_⟩
    suffices h : (Crew.after o ps w σ m).Holds o ps i (Text.toBytes html) from h.read
    induction m, hm using Nat.le_induction with
    | base => exact ⟨hkept, by rw [hx]; exact rfl⟩
    | succ m hm ih => exact ih.move (Crew.apart_after hdir hps hfiles σ m).linkless hdir hps (σ m)

section examples

/-- Paths of different directories, one of them left again by a step up. -/
example : (Path.ofString "out").copyUnder (.ofString "a/../x.html") =
    (Path.ofString "out").copyUnder (.ofString "a/x.html") := by cbv

/-- One move of a worker that has the world for itself. -/
def alone (o : BatchOptions) (p : Path) (y : Worker × World) : Worker × World :=
  y.1.advance o p y.2

private theorem after_alone (o : BatchOptions) (ps : Fin n → Path) (w : World) (i : Fin n) (k : ℕ) :
    let c := Crew.after o ps w (fun _ => .file i) k
    (c.workers i, c.world) = (alone o (ps i))^[k] (.idle .unread, w) := by
  induction k with
  | zero => rfl
  | succ k ih =>
    dsimp only at ih ⊢
    rw [Function.iterate_succ_apply', ← ih]
    simp [Crew.after, Crew.move, alone]

private theorem alone_busy (o : BatchOptions) (p : Path) (work : Work Stage) (e : Engine)
    (files : FileTree) : ∃ k, (alone o p)^[k] (.busy work, ⟨e, files⟩) =
      (.idle (work.run e).1, ⟨(work.run e).2, files⟩) := by
  induction work generalizing e with
  | done s => exact ⟨1, rfl⟩
  | step q next ih =>
    obtain ⟨k, hk⟩ := ih (q.apply e).1 (q.apply e).2
    exact ⟨k + 1, hk⟩

theorem alone_step (o : BatchOptions) (p : Path) (s : Stage) (w : World) :
    ∃ k, (alone o p)^[k] (.idle s, w) = (.idle (step o p s w).1, (step o p s w).2) := by
  cases hc : calls w.engine o p s with
  | none => exact ⟨1, by simp [alone, Worker.advance, hc]⟩
  | some work =>
    obtain ⟨k, hk⟩ := alone_busy o p work w.engine w.files
    refine ⟨k + 1, ?_⟩
    have hfirst : alone o p (.idle s, w) = (.busy work, w) := by
      simp [alone, Worker.advance, hc]
    rw [Function.iterate_succ_apply, hfirst, step_of_calls hc]
    exact hk

private theorem exists_ready {e : Engine} {outcome : Repair.Outcome} (ps : Fin n → Path)
    (hf : o.fix = true)
    (hd : e.disposed = false) (hr : readHtml files e.settings.maxFileSize (ps i) = .ok html)
    (ho : (e.repair html).1 = .ok outcome) (hc : outcome.changed = true)
    (hw : (files.writeBelow (target o (ps i)) (Text.toBytes outcome.html)).1 = .ok ()) :
    ∃ k, (Crew.after o ps ⟨e, files⟩ (fun _ => .file i) k).workers i =
      .idle (.ready outcome.html outcome.fixed (some (target o (ps i)))) := by
  have hwrite : (step o (ps i) (.repaired outcome) ⟨(e.repair html).2, files⟩).1 =
      .ready outcome.html outcome.fixed (some (target o (ps i))) := by
    rw [step_repaired, if_pos hc]
    dsimp only
    rw [hw]
    rfl
  obtain ⟨k₁, h₁⟩ := alone_step o (ps i) .unread ⟨e, files⟩
  obtain ⟨k₂, h₂⟩ := alone_step o (ps i) (.loaded html) ⟨e, files⟩
  obtain ⟨k₃, h₃⟩ := alone_step o (ps i) (.repaired outcome) ⟨(e.repair html).2, files⟩
  refine ⟨k₃ + (k₂ + k₁), ?_⟩
  have h := congrArg Prod.fst (after_alone o ps ⟨e, files⟩ i (k₃ + (k₂ + k₁)))
  rw [Function.iterate_add_apply, Function.iterate_add_apply, h₁, step_read hd hr, h₂,
    step_repair hf ho, h₃] at h
  rw [← hwrite]
  exact h

private theorem linkless_twoFiles (content : ByteArray) : (twoFiles content).root.Linkless := by
  have hfile : (FileEntry.file content).Linkless := FileEntry.linkless_file content
  refine FileEntry.linkless_directory (List.forall_mem_cons.2 ⟨hfile, ?_⟩)
  refine List.forall_mem_singleton.2 (FileEntry.linkless_directory ?_)
  refine List.forall_mem_singleton.2 (FileEntry.linkless_directory ?_)
  exact List.forall_mem_singleton.2 hfile

/-- A file is repaired by a worker that is let on alone, and its copy stays. -/
theorem copies_apart_twoFiles :
    let e := (build onePass).after onlyTrimmer
    let files := twoFiles (Text.toBytes " x".toList)
    let ps : Fin 2 → Path := twoPaths.get
    let after := Crew.after copying ps ⟨e, files⟩ fun _ => .file 0
    let p : Path := .ofString "b/x/y"
    let q : Path := .ofString "x"
    copying.outDir = some (.ofString "out") ∧
      (p.IsStraight ∧ q.IsStraight ∧ p.isAbsolute = q.isAbsolute ∧
        ¬((Path.ofString "out").copyUnder p).same ((Path.ofString "out").copyUnder q) = true) ∧
      files.root.Linkless ∧ (Function.Injective fun i => (ps i).names) ∧
      ∃ k html fixed,
        (after k).workers 0 = .idle (.ready html fixed (some (.ofString "out/b/x"))) ∧
          ∀ m ≥ k, (after m).world.files.read (.ofString "out/b/x") = .ok (Text.toBytes html) := by
  intro e files ps after p q
  obtain ⟨-, hstraight, -, -, hkept⟩ :=
    copies_apart copying (.ofString "out") ps ⟨e, files⟩ (fun _ => .file 0) rfl
  have hp : p.IsStraight := by
    rw [Path.IsStraight]
    decide +kernel
  have hq : q.IsStraight := by
    rw [Path.IsStraight]
    decide +kernel
  have hlinks : files.root.Linkless := linkless_twoFiles _
  have hps : Function.Injective fun i => (ps i).names := by
    simp only [Function.Injective]
    decide +kernel
  have htarget : target copying (ps 0) = .ofString "out/b/x" := target_twoPaths.1
  have he : e.Faithful := (faithful_build onePass).after onlyTrimmer
  have hread : readHtml files e.settings.maxFileSize (ps 0) = .ok " x".toList :=
    readHtml_of_get (get_twoFiles _).1 (by decide +kernel)
  obtain ⟨outcome, ho, hc⟩ := repair_trimmer he (.refl e)
  have hwrite : (files.writeBelow (target copying (ps 0))
      (Text.toBytes outcome.html)).1 = .ok () := by
    rw [htarget]
    exact (write_either _ _).1
  obtain ⟨k, hk⟩ := exists_ready ps rfl rfl hread ho hc hwrite
  rw [htarget] at hk
  refine ⟨rfl, ⟨hp, hq, rfl, ?_⟩, hlinks, hps, k, _, _, hk, (hkept hlinks hps 0 k _ _ _ hk).2⟩
  rw [hstraight p q hp hq rfl]
  decide +kernel

end examples

end Batch
end MailMarkup
