import MailMarkup.Proofs.Files.Steps

/-!
# Trees that grow

Making directories and writing files adds to a tree and takes nothing away: what was there stays in
its place, and contents change only in the files that are written. Where there are no links, a path
leads to the place that its steps spell, whatever else the tree holds. So what has been written
through a path is read through it until something is written through a path that spells the same
place.
-/
namespace MailMarkup

namespace FileEntry
variable {a b c e new x : FileEntry} {places places' : Set (List Text)} {place q v : List Text}
  {n : Text} {es : List (Text × FileEntry)}

/-- There are no links in it. -/
def Linkless (e : FileEntry) : Prop := ∀ q target, e.at? q ≠ some (.link target)

/-- What is in the first is in the second, but for the contents of the files at some places. -/
def Grown (places : Set (List Text)) (a b : FileEntry) : Prop :=
  ∀ q, a.at? q ≠ none → Agree (q ∈ places) (a.at? q) (b.at? q)

theorem Grown.refl (places : Set (List Text)) (a : FileEntry) : Grown places a a :=
  fun _ _ => .refl _ _

theorem Grown.mono (h : Grown places a b) (hsub : ∀ q, a.at? q ≠ none → q ∈ places → q ∈ places') :
    Grown places' a b :=
  fun q hq => (h q hq).mono (hsub q hq)

theorem Grown.present (h : Grown places a b) (hq : a.at? q ≠ none) : b.at? q ≠ none := by
  intro hb
  have hagree := h q hq
  rw [hb] at hagree
  rcases ha : a.at? q with _ | (_ | _ | _)
  · exact hq ha
  all_goals
    rw [ha] at hagree
    exact hagree.elim

theorem Grown.trans (h : Grown places a b) (h' : Grown places b c) : Grown places a c :=
  fun q hq => (h q hq).trans (h' q (h.present hq))

theorem Grown.directory (h : Grown places a b) (ha : a.at? q = some (.directory es)) :
    ∃ ds, b.at? q = some (.directory ds) ∧
      ∀ n, get? n es ≠ none → Agree (q ++ [n] ∈ places) (get? n es) (get? n ds) := by
  have hq := h q (by rw [ha]; exact Option.some_ne_none _)
  obtain ⟨ds, hb⟩ := Agree.directory_left (ha ▸ hq)
  refine ⟨ds, hb, fun n hn => ?_⟩
  rw [← at?_concat ha n] at hn ⊢
  rw [← at?_concat hb n]
  exact h (q ++ [n]) hn

/-- An entry is put where nothing is, or a file is given another content. -/
theorem grown_set (h : ∀ x, e.at? v = some x → (∃ s, x = .file s) ∧ ∃ s, new = .file s) :
    Grown {v} e (e.set v new) := by
  intro r hr
  induction v generalizing e r with
  | nil =>
    obtain ⟨⟨s, rfl⟩, s', rfl⟩ := h e rfl
    cases r with
    | nil => exact .inl rfl
    | cons m r => exact absurd rfl hr
  | cons n v ih =>
    cases e with
    | directory es =>
      cases r with
      | nil =>
        rw [FileEntry.set]
        split <;> trivial
      | cons m r =>
        by_cases hm : m = n
        · subst hm
          cases hd : get? m es with
          | none => exact absurd (by rw [at?, hd]; rfl) hr
          | some d =>
            rw [at?, hd] at hr
            simp only [FileEntry.set, at?, hd, get?_put, if_true, Option.bind_some]
            refine (ih (fun x hx => h x ?_) r hr).mono (congrArg _)
            rw [at?, hd]
            exact hx
        · have hget (d : FileEntry) : get? m (put n d es) = get? m es := by rw [get?_put, if_neg hm]
          rw [FileEntry.set]
          split <;>
          · rw [at?, at?, hget]
            exact .refl _ _
    | file s => exact .refl _ _
    | link target => exact .refl _ _

theorem linkless_set (h : e.Linkless) (hnew : new.Linkless) : (e.set v new).Linkless := by
  intro q target hq
  induction v generalizing e q with
  | nil => exact hnew q target hq
  | cons n v ih =>
    cases e with
    | directory es =>
      have hbelow {m : Text} {d : FileEntry} (hd : get? m es = some d) : d.Linkless :=
        fun r p hr => h (m :: r) p (by rw [at?, hd]; exact hr)
      cases q with
      | nil =>
        rw [FileEntry.set] at hq
        split at hq <;> cases hq
      | cons m q =>
        cases hd : get? n es with
        | none =>
          simp only [FileEntry.set, hd, at?, get?_put] at hq
          split at hq
          · exact hnew q target hq
          · exact h (m :: q) target hq
        | some d =>
          simp only [FileEntry.set, hd, at?, get?_put] at hq
          split at hq
          · exact ih (hbelow hd) q hq
          · exact h (m :: q) target hq
    | file s => exact h q target hq
    | link p => exact h q target hq

theorem linkless_file (s : ByteArray) : (file s).Linkless := by
  intro q target h
  cases q <;> cases h

theorem linkless_directory (h : ∀ x ∈ es, x.2.Linkless) : (directory es).Linkless := by
  intro q target hq
  cases q with
  | nil => cases hq
  | cons m q =>
    obtain ⟨d, hd, hq⟩ := Option.bind_eq_some_iff.1 hq
    exact h _ (get?_mem hd) q target hq

theorem at?_above (h : e.at? (place ++ [n]) = some x) :
    ∃ es, e.at? place = some (.directory es) := by
  rw [at?_append, Option.bind_eq_some_iff] at h
  obtain ⟨d, hd, h⟩ := h
  cases d with
  | directory es => exact ⟨es, hd⟩
  | file s => cases h
  | link target => cases h

theorem at?_set_concat (h : e.at? place = some (.directory es)) (n : Text) (new : FileEntry) :
    (e.set (place ++ [n]) new).at? (place ++ [n]) = some new := by
  induction place generalizing e with
  | nil =>
    obtain rfl := Option.some.inj h
    rw [List.nil_append, FileEntry.set]
    split <;> simp [at?, get?_put, FileEntry.set]
  | cons m place ih =>
    cases e with
    | directory ds =>
      rw [at?, Option.bind_eq_some_iff] at h
      obtain ⟨d, hd, h⟩ := h
      simp only [List.cons_append, FileEntry.set, hd, at?, get?_put, if_true, Option.bind_some]
      exact ih h
    | file s => cases h
    | link target => cases h

private theorem at?_set_present (h : e.at? v = some x) (new : FileEntry) :
    (e.set v new).at? v = some new := by
  rcases List.eq_nil_or_concat v with rfl | ⟨place, n, rfl⟩
  · cases e <;> rfl
  · rw [List.concat_eq_append] at h ⊢
    obtain ⟨es, hes⟩ := at?_above h
    exact at?_set_concat hes n new

end FileEntry

theorem Step.ofPiece?_eq_name {piece : Text}
    (hp : ¬(decide (piece = []) || decide (piece = ['.'])) = true) (hu : ¬piece = ['.', '.']) :
    Step.ofPiece? piece = some (.name piece) := by
  rw [Step.ofPiece?, if_neg hp, if_neg hu]

/-- Where a step leads from a place. -/
def Step.enter (place : List Text) : Step → List Text
  | .root => []
  | .here => place
  | .up => place.dropLast
  | .name n => place ++ [n]

namespace FileTree
open FileEntry

/-- The place that was found. -/
def Found.place : Found → List Text
  | .entry q _ _ => q
  | .vacant q n => q ++ [n]

variable {root a b : FileEntry} {t t' t'' : FileTree} {places places' : Set (List Text)}
  {follow : Bool} {links l : Nat} {place q pieces : List Text} {e : FileEntry} {n : Text} {p : Path}
  {content x : ByteArray}

/-- The place that the steps of a path spell. -/
def lands (t : FileTree) (p : Path) : List Text := p.steps.foldl Step.enter t.here

theorem foldl_pieces (t : FileTree) (p : Path) :
    (p.pieces.filterMap Step.ofPiece?).foldl Step.enter (t.start p) = t.lands p := by
  rw [lands, Path.steps_eq, List.foldl_append, start, Path.lead]
  split
  · rfl
  · split <;> rfl

/-- Without links the place is spelled by the pieces. -/
theorem place_of_find {f : Found} (hroot : root.Linkless)
    (h : find root follow links place pieces = .ok f) :
    f.place = (pieces.filterMap Step.ofPiece?).foldl Step.enter place := by
  fun_induction find root follow links place pieces with
  | case1 links place e he =>
    cases h
    rfl
  | case3 links place piece rest es he hp ih =>
    have hnone : Step.ofPiece? piece = none := by rw [Step.ofPiece?, if_pos hp]
    rw [List.filterMap_cons_none hnone]
    exact ih h
  | case4 links place rest es he hp ih =>
    exact ih h
  | case6 links place piece rest es he hp hu hg hlong hrest =>
    cases h
    have hnone : rest.filterMap Step.ofPiece? = [] := by
      refine List.filterMap_eq_nil_iff.2 fun y hy => ?_
      rw [List.isEmpty_iff.1 (List.all_eq_true.1 hrest y hy)]
      rfl
    rw [List.filterMap_cons_some (Step.ofPiece?_eq_name hp hu), hnone]
    rfl
  | case8 links place piece rest es he hp hu target hg hf =>
    exact absurd ((at?_concat he piece).trans hg) (hroot _ _)
  | case10 place piece rest es he hp hu target hg hf links ih =>
    exact absurd ((at?_concat he piece).trans hg) (hroot _ _)
  | case11 links place piece rest es he hp hu val hval hg ih =>
    rw [List.filterMap_cons_some (Step.ofPiece?_eq_name hp hu)]
    exact ih h
  | _ => cases h

theorem place_of_lookup {f : Found} (hroot : t.root.Linkless) (h : t.lookup follow p = .ok f) :
    f.place = t.lands p := by
  rw [lookup] at h
  split at h
  · cases h
  · rw [← foldl_pieces]
    exact place_of_find hroot h

private theorem vacant_of_find (h : find root follow links place pieces = .ok (.vacant q n)) :
    ∃ es, root.at? q = some (.directory es) ∧ get? n es = none := by
  fun_induction find root follow links place pieces with
  | case3 links place piece rest es he hp ih => exact ih h
  | case4 links place rest es he hp ih => exact ih h
  | case6 links place piece rest es he hp hu hg hlong hrest =>
    cases h
    exact ⟨es, he, hg⟩
  | case10 place piece rest es he hp hu target hg hf links ih => exact ih h
  | case11 links place piece rest es he hp hu val hval hg ih => exact ih h
  | _ => cases h

theorem vacant_of_lookup (h : t.lookup follow p = .ok (.vacant q n)) :
    ∃ es, t.root.at? q = some (.directory es) ∧ t.root.at? (q ++ [n]) = none := by
  rw [lookup] at h
  split at h
  · cases h
  · obtain ⟨es, hes, hn⟩ := vacant_of_find h
    exact ⟨es, hes, (at?_concat hes n).trans hn⟩

theorem at?_of_lookup (h : t.lookup follow p = .ok (.entry q e l)) (hfollow : follow = true) :
    t.root.at? q = some e := by
  subst hfollow
  rw [lookup] at h
  split at h
  · cases h
  · exact at?_of_find h

/-- What a path leads to, it leads to when the tree has grown. -/
theorem find_grown (h : Grown places a b)
    (hf : find a follow links place pieces = .ok (.entry q e l)) :
    ∃ e', find b follow links place pieces = .ok (.entry q e' l) ∧
      FileEntry.Agree (q ∈ places) (some e) (some e') := by
  fun_induction find a follow links place pieces with
  | case1 links place e' he =>
    cases hf
    have hagree := h q (by rw [he]; exact Option.some_ne_none _)
    rw [he] at hagree
    obtain ⟨x, hx⟩ := hagree.exists_right
    exact ⟨x, find_nil hx, hx ▸ hagree⟩
  | case3 links place piece rest es he hp ih =>
    obtain ⟨ds, hb, -⟩ := h.directory he
    rw [find_here hb hp]
    exact ih hf
  | case4 links place rest es he hp ih =>
    obtain ⟨ds, hb, -⟩ := h.directory he
    rw [find_up hb]
    exact ih hf
  | case8 links place piece rest es he hp hu target hg hlast =>
    cases hf
    obtain ⟨ds, hb, hn⟩ := h.directory he
    have hd := Agree.link_left (hg ▸ hn piece (by rw [hg]; exact Option.some_ne_none _))
    exact ⟨_, find_link_kept hb hp hu hd hlast, rfl⟩
  | case10 place piece rest es he hp hu target hg hlast links ih =>
    obtain ⟨ds, hb, hn⟩ := h.directory he
    have hd := Agree.link_left (hg ▸ hn piece (by rw [hg]; exact Option.some_ne_none _))
    rw [find_link_followed hb hp hu hd hlast]
    exact ih hf
  | case11 links place piece rest es he hp hu val hval hg ih =>
    obtain ⟨ds, hb, hn⟩ := h.directory he
    have hd := hn piece (by rw [hg]; exact Option.some_ne_none _)
    obtain ⟨x, hx, hl⟩ := Agree.entered (hg ▸ hd) hval
    rw [find_within hb hp hu hx hl]
    exact ih hf
  | _ => cases hf

/-- A path that led to nothing yet leads to the file that is put there. -/
theorem find_filled (hroot : a.Linkless) (h : Grown places a b)
    (hf : find a true links place pieces = .ok (.vacant q n))
    (hb : b.at? (q ++ [n]) = some (.file x)) (hlast : pieces.getLast? ≠ some []) :
    find b true links place pieces = .ok (.entry (q ++ [n]) (.file x) links) := by
  have htail {piece : Text} {rest : List Text} (h : (piece :: rest).getLast? ≠ some []) :
      rest.getLast? ≠ some [] := by
    cases rest with
    | nil => exact (Option.some_ne_none _).symm
    | cons y rest => rwa [List.getLast?_cons_cons] at h
  fun_induction find a true links place pieces with
  | case3 links place piece rest es he hp ih =>
    obtain ⟨ds, hds, -⟩ := h.directory he
    rw [find_here hds hp]
    exact ih hf (htail hlast)
  | case4 links place rest es he hp ih =>
    obtain ⟨ds, hds, -⟩ := h.directory he
    rw [find_up hds]
    exact ih hf (htail hlast)
  | case6 links place piece rest es he hp hu hg hlong hrest =>
    cases hf
    obtain ⟨ds, hds, -⟩ := h.directory he
    have hfile : get? n ds = some (.file x) := (at?_concat hds n).symm.trans hb
    have hnil : rest = [] := by
      rcases List.eq_nil_or_concat rest with rfl | ⟨rest, y, rfl⟩
      · rfl
      · refine absurd ?_ hlast
        rw [List.concat_eq_append] at hrest ⊢
        have hy := List.isEmpty_iff.1 (List.all_eq_true.1 hrest y (by simp))
        rw [← List.cons_append, List.getLast?_concat, hy]
    subst hnil
    rw [find_within hds hp hu hfile (by simp), find_nil hb]
  | case10 place piece rest es he hp hu target hg hf links ih =>
    exact absurd ((at?_concat he piece).trans hg) (hroot _ _)
  | case11 links place piece rest es he hp hu val hval hg ih =>
    obtain ⟨ds, hds, hn⟩ := h.directory he
    have hd := hn piece (by rw [hg]; exact Option.some_ne_none _)
    obtain ⟨x, hx, hl⟩ := Agree.entered (hg ▸ hd) hval
    rw [find_within hds hp hu hx hl]
    exact ih hf (htail hlast)
  | _ => cases hf

/-- The tree has become another one by writing files at some places and making directories. -/
structure Grows (places : Set (List Text)) (t t' : FileTree) : Prop where
  here : t'.here = t.here
  root : Grown places t.root t'.root
  linkless : t.root.Linkless → t'.root.Linkless

theorem Grows.refl (places : Set (List Text)) (t : FileTree) : Grows places t t :=
  ⟨rfl, .refl _ _, id⟩

theorem Grows.trans (h : Grows places t t') (h' : Grows places t' t'') : Grows places t t'' :=
  ⟨h'.here.trans h.here, h.root.trans h'.root, h'.linkless ∘ h.linkless⟩

theorem Grows.lands (h : Grows places t t') (p : Path) : t'.lands p = t.lands p := by
  rw [FileTree.lands, FileTree.lands, h.here]

theorem Grows.start (h : Grows places t t') (p : Path) : t'.start p = t.start p := by
  rw [FileTree.start, FileTree.start, h.here]

private theorem grows_makeDirectory (h : t.makeDirectory p = .ok t') : Grows ∅ t t' := by
  rw [makeDirectory, make] at h
  split at h
  · cases h
  · rename_i hl
    cases h
    obtain ⟨es, -, hnone⟩ := vacant_of_lookup hl
    have hempty : (directory []).Linkless := linkless_directory (List.forall_mem_nil _)
    refine ⟨rfl, (grown_set (by simp [hnone])).mono ?_, (linkless_set · hempty)⟩
    rintro q hq rfl
    exact hq hnone
  · cases h

theorem grows_ensureDirectory (t : FileTree) (p : Path) : Grows ∅ t (t.ensureDirectory p).2 := by
  rw [ensureDirectory]
  split
  · rename_i h
    exact grows_makeDirectory h
  · exact .refl _ _

/-- Making directories only adds to a tree, also if not all of them can be made. -/
theorem grows_ensurePieces (t : FileTree) (above : List Text) :
    Grows ∅ t (t.ensurePieces above).2 := by
  induction above generalizing t with
  | nil => exact .refl _ _
  | cons piece above ih =>
    rw [ensurePieces]
    split
    · exact ih t
    · have hone := grows_ensureDirectory t (Path.ofPieces (piece :: above).reverse)
      dsimp only
      split
      · rename_i t₁ h
        rw [h] at hone
        have habove := ih t₁
        split
        · rename_i h'
          rw [h'] at habove
          exact (hone.trans habove).trans (grows_ensureDirectory _ _)
        · exact hone.trans habove
      · exact hone

theorem grows_write (hroot : t.root.Linkless) (h : t.write p content = .ok t') :
    Grows {t.lands p} t t' := by
  rw [write] at h
  split at h
  · rename_i hl
    cases h
    have hfile := at?_of_lookup hl rfl
    rw [← place_of_lookup hroot hl]
    refine ⟨rfl, grown_set fun x hx => ?_, (linkless_set · (linkless_file _))⟩
    rw [Found.place, hfile] at hx
    cases hx
    exact ⟨⟨_, rfl⟩, _, rfl⟩
  · cases h
  · rename_i hl
    cases h
    obtain ⟨es, -, hnone⟩ := vacant_of_lookup hl
    rw [← place_of_lookup hroot hl]
    exact ⟨rfl, grown_set (by simp [Found.place, hnone]), (linkless_set · (linkless_file _))⟩
  · cases h

theorem grows_writeBelow (hroot : t.root.Linkless) (p : Path) (content : ByteArray) :
    Grows {t.lands p} t (t.writeBelow p content).2 := by
  have habove := grows_ensurePieces t p.above
  have habove' : Grows {t.lands p} t (t.ensurePieces p.above).2 :=
    ⟨habove.here, habove.root.mono fun _ _ => False.elim, habove.linkless⟩
  rw [writeBelow]
  split
  · rename_i h
    rw [h] at habove habove'
    split
    · rename_i hw
      have hlast := grows_write (habove.linkless hroot) hw
      rw [habove.lands] at hlast
      exact habove'.trans hlast
    · exact habove'
  · exact habove'

/-- What is read of a file stays the same while files are written in other places. -/
theorem Grows.read (h : Grows places t t') (hroot : t.root.Linkless) (hp : t.lands p ∉ places)
    (hr : t.read p = .ok x) : t'.read p = .ok x := by
  rw [FileTree.read, get] at hr
  rcases hl : t.lookup true p with f | (⟨q, e, l⟩ | ⟨q, m⟩) <;> simp only [hl] at hr
  · cases hr
  · cases e with
    | file y =>
      obtain rfl := Except.ok.inj hr
      rw [← place_of_lookup hroot hl, Found.place] at hp
      rw [lookup] at hl
      split at hl
      · cases hl
      · rename_i hfault
        obtain ⟨e', hfind, hagree⟩ := find_grown h.root hl
        have hsame : e' = .file y := by
          cases e' with
          | file z => rw [hagree.resolve_left hp]
          | directory es => exact hagree.elim
          | link target => exact hagree.elim
        rw [FileTree.read, get, lookup, hfault, h.start p]
        simp only [hfind, hsame]
    | directory es => cases hr
    | link target => cases hr
  · cases hr

private theorem read_of_write (hroot : t.root.Linkless) (hlast : p.pieces.getLast? ≠ some [])
    (h : t.write p content = .ok t') : t'.read p = .ok content := by
  have hgrows := grows_write hroot h
  rw [write] at h
  rcases hl : t.lookup true p with f | (⟨q, e, l⟩ | ⟨q, m⟩) <;> simp only [hl] at h
  · cases h
  · cases e with
    | file y =>
      obtain rfl := Except.ok.inj h
      have hat := at?_set_present (at?_of_lookup hl rfl) (.file content)
      rw [lookup] at hl
      split at hl
      · cases hl
      · rename_i hfault
        obtain ⟨e', hfind, -⟩ := find_grown hgrows.root hl
        rw [at?_of_find hfind] at hat
        obtain rfl := Option.some.inj hat
        rw [FileTree.read, get, lookup, hfault, hgrows.start p]
        simp only [hfind]
    | directory es => cases h
    | link target => cases h
  · obtain rfl := Except.ok.inj h
    obtain ⟨es, hes, -⟩ := vacant_of_lookup hl
    have hat := at?_set_concat hes m (.file content)
    rw [lookup] at hl
    split at hl
    · cases hl
    · rename_i hfault
      have hfind := find_filled hroot hgrows.root hl hat hlast
      rw [FileTree.read, get, lookup, hfault, hgrows.start p]
      simp only [hfind]

theorem read_of_writeBelow (hroot : t.root.Linkless) (hlast : p.pieces.getLast? ≠ some [])
    (h : (t.writeBelow p content).1 = .ok ()) :
    (t.writeBelow p content).2.read p = .ok content := by
  have habove := grows_ensurePieces t p.above
  rw [writeBelow] at h ⊢
  rcases ha : t.ensurePieces p.above with ⟨_ | _, t₁⟩ <;> simp only [ha] at h habove ⊢
  · cases h
  · cases hw : t₁.write p content with
    | error f =>
      rw [hw] at h
      cases h
    | ok t₂ => exact read_of_write (habove.linkless hroot) hlast hw

/-- Where only points and steps up lead is a directory. -/
theorem directory_of_find (hnames : ∀ piece ∈ pieces, ∀ m, Step.ofPiece? piece ≠ some (.name m))
    (hplace : pieces = [] → ∃ es, root.at? place = some (.directory es))
    (h : find root follow links place pieces = .ok (.entry q e l)) : ∃ es, e = .directory es := by
  fun_induction find root follow links place pieces with
  | case1 links place e' he =>
    cases h
    obtain ⟨es, hes⟩ := hplace rfl
    exact ⟨es, Option.some.inj (he.symm.trans hes)⟩
  | case3 links place piece rest es he hp ih =>
    exact ih (List.forall_mem_cons.1 hnames).2 (fun _ => ⟨es, he⟩) h
  | case4 links place rest es he hp ih =>
    refine ih (List.forall_mem_cons.1 hnames).2 (fun _ => ?_) h
    rcases List.eq_nil_or_concat place with rfl | ⟨above, m, rfl⟩
    · exact ⟨es, he⟩
    · rw [List.concat_eq_append] at he ⊢
      rw [List.dropLast_concat]
      exact at?_above he
  | case8 links place piece rest es he hp hu target hg hlast =>
    exact absurd (Step.ofPiece?_eq_name hp hu) ((List.forall_mem_cons.1 hnames).1 piece)
  | case10 place piece rest es he hp hu target hg hlast links ih =>
    exact absurd (Step.ofPiece?_eq_name hp hu) ((List.forall_mem_cons.1 hnames).1 piece)
  | case11 links place piece rest es he hp hu val hval hg ih =>
    exact absurd (Step.ofPiece?_eq_name hp hu) ((List.forall_mem_cons.1 hnames).1 piece)
  | _ => cases h

end FileTree
end MailMarkup
