import MailMarkup.Proofs.Files.Growth

/-!
# Room for a file

There is room for a file if there is nothing but directories on the way to its place, and nothing
but a file in the place. Then the file can be written, and what is missing on the way is made.
Nothing else is, so there is still room for another file, unless one of the two places is on the way
to the other.
-/
namespace MailMarkup

namespace FileEntry
variable {a b c e new x : FileEntry} {places : Set (List Text)} {place q r v : List Text} {n : Text}
  {es : List (Text × FileEntry)}

private theorem Grown.exists_directory (h : Grown places a b)
    (ha : ∃ es, a.at? q = some (.directory es)) : ∃ es, b.at? q = some (.directory es) := by
  obtain ⟨es, hes⟩ := ha
  obtain ⟨ds, hds, -⟩ := h.directory hes
  exact ⟨ds, hds⟩

private theorem Grown.exists_file (h : Grown places a b) (ha : ∃ s, a.at? q = some (.file s)) :
    ∃ s, b.at? q = some (.file s) := by
  obtain ⟨s, hs⟩ := ha
  have hagree := h q (by rw [hs]; exact Option.some_ne_none _)
  rw [hs] at hagree
  exact hagree.file_left

/-- Nothing yet, or a directory. -/
def Passable (e : FileEntry) (q : List Text) : Prop :=
  e.at? q = none ∨ ∃ es, e.at? q = some (.directory es)

/-- Nothing yet, or a file. -/
def Fillable (e : FileEntry) (q : List Text) : Prop :=
  e.at? q = none ∨ ∃ s, e.at? q = some (.file s)

/-- What the second has and the first has not is directories on the way to a place. -/
def Paved (v : List Text) (a b : FileEntry) : Prop :=
  ∀ r, a.at? r = none → b.at? r = none ∨ r <+: v ∧ ∃ es, b.at? r = some (.directory es)

theorem Paved.refl (v : List Text) (a : FileEntry) : Paved v a a := fun _ h => .inl h

theorem Paved.trans (h : Paved q a b) (h' : Paved v b c) (hg : Grown ∅ b c) (hq : q <+: v) :
    Paved v a c := by
  intro r hr
  rcases h r hr with hb | ⟨hrq, es, hb⟩
  · exact h' r hb
  · exact .inr ⟨hrq.trans hq, hg.exists_directory ⟨es, hb⟩⟩

theorem Passable.paved (h : a.Passable r) (hp : Paved v a b) (hg : Grown ∅ a b) : b.Passable r := by
  rcases h with h | h
  · exact (hp r h).imp_right And.right
  · exact .inr (hg.exists_directory h)

theorem Fillable.paved (h : a.Fillable r) (hp : Paved v a b) (hg : Grown ∅ a b) (hr : ¬r <+: v) :
    b.Fillable r := by
  rcases h with h | h
  · exact .inl ((hp r h).resolve_right fun hv => hr hv.1)
  · exact .inr (hg.exists_file h)

theorem exists_directory_above (h : e.at? (place ++ v) = some (.directory es)) :
    ∃ ds, e.at? place = some (.directory ds) := by
  rw [at?_append, Option.bind_eq_some_iff] at h
  obtain ⟨d, hd, h⟩ := h
  cases d with
  | directory ds => exact ⟨ds, hd⟩
  | file s => cases v <;> cases h
  | link target => cases v <;> cases h

private theorem exists_of_at?_set (he : e.at? place = some (.directory es))
    (h : (e.set (place ++ [n]) new).at? r = some x) (hr : e.at? r = none) :
    ∃ s, r = place ++ n :: s ∧ new.at? s = some x := by
  induction place generalizing e r with
  | nil =>
    obtain rfl := Option.some.inj he
    cases r with
    | nil => cases hr
    | cons m r =>
      have hset : (directory es).set [n] new = directory (put n new es) := by
        rw [FileEntry.set]
        cases get? n es <;> rfl
      rw [List.nil_append, hset, at?, get?_put] at h
      split at h
      · rename_i hm
        exact ⟨r, by rw [hm]; rfl, h⟩
      · exact absurd (h.symm.trans hr) (Option.some_ne_none x)
  | cons m place ih =>
    cases e with
    | directory ds =>
      rw [at?, Option.bind_eq_some_iff] at he
      obtain ⟨d, hd, he⟩ := he
      cases r with
      | nil => cases hr
      | cons k r =>
        simp only [List.cons_append, FileEntry.set, hd, at?, get?_put] at h
        split at h
        · rename_i hk
          subst hk
          rw [at?, hd] at hr
          obtain ⟨s, rfl, hs⟩ := ih he h hr
          exact ⟨s, rfl, hs⟩
        · exact absurd (h.symm.trans hr) (Option.some_ne_none x)
    | file s => cases he
    | link target => cases he

theorem at?_set_bare (he : e.at? place = some (.directory es))
    (hnew : ∀ s, s ≠ [] → new.at? s = none) (hr : e.at? r = none) :
    (e.set (place ++ [n]) new).at? r = none ∨ r = place ++ [n] := by
  refine or_iff_not_imp_left.2 fun h => ?_
  obtain ⟨x, hx⟩ := Option.ne_none_iff_exists'.1 h
  obtain ⟨s, rfl, hs⟩ := exists_of_at?_set he hx hr
  by_cases hnil : s = []
  · rw [hnil]
  · rw [hnew s hnil] at hs
    cases hs

end FileEntry

/-- The names among the pieces of a path. -/
def stepNames (pieces : List Text) : List Text :=
  pieces.filter fun piece => (Step.ofPiece? piece).isSome

namespace FileTree
open FileEntry
variable {root a b : FileEntry} {t : FileTree} {follow : Bool} {links : Nat}
  {place v xs ys above : List Text} {x : Text} {es : List (Text × FileEntry)} {p q : Path}

private theorem ofPiece?_eq_none
    (h : (decide (x = []) || decide (x = ['.'])) = true) : Step.ofPiece? x = none := by
  rw [Step.ofPiece?, if_pos h]

theorem stepNames_cons_none (h : Step.ofPiece? x = none) : stepNames (x :: xs) = stepNames xs := by
  rw [stepNames, List.filter_cons_of_neg (by rw [h]; exact Bool.false_ne_true), stepNames]

theorem stepNames_cons_name {n : Text} (h : Step.ofPiece? x = some (.name n)) :
    stepNames (x :: xs) = x :: stepNames xs := by
  rw [stepNames, List.filter_cons_of_pos (by rw [h]; rfl), stepNames]

theorem stepNames_append (xs ys : List Text) :
    stepNames (xs ++ ys) = stepNames xs ++ stepNames ys :=
  List.filter_append ..

theorem stepNames_concat (hx : Step.ofPiece? x ≠ none) :
    stepNames (xs ++ [x]) = stepNames xs ++ [x] := by
  have hone : stepNames [x] = [x] := List.filter_cons_of_pos (Option.isSome_iff_ne_none.2 hx)
  rw [stepNames_append, hone]

/-- The names of a path without steps up spell its place. -/
theorem lands_eq (hup : ['.', '.'] ∉ p.pieces) : t.lands p = t.start p ++ stepNames p.pieces := by
  rw [← foldl_pieces]
  generalize t.start p = place
  generalize p.pieces = xs at hup ⊢
  induction xs generalizing place with
  | nil => exact (List.append_nil place).symm
  | cons x xs ih =>
    obtain ⟨hx, hup⟩ := not_or.1 (List.mem_cons.not.1 hup)
    by_cases hblank : (decide (x = []) || decide (x = ['.'])) = true
    · have hnone := ofPiece?_eq_none hblank
      rw [List.filterMap_cons_none hnone, stepNames_cons_none hnone, ih _ hup]
    · have hname := Step.ofPiece?_eq_name hblank (Ne.symm hx)
      rw [List.filterMap_cons_some hname, stepNames_cons_name hname, List.foldl_cons, Step.enter,
        ih _ hup, List.append_assoc, List.singleton_append]

/-- A search goes on from where the first pieces lead. -/
theorem find_through (hup : ['.', '.'] ∉ xs)
    (h : root.at? (place ++ stepNames xs) = some (.directory es)) :
    find root follow links place (xs ++ ys) =
      find root follow links (place ++ stepNames xs) ys := by
  induction xs generalizing place with
  | nil => exact congrArg (find root follow links · ys) (List.append_nil place).symm
  | cons x xs ih =>
    obtain ⟨hx, hup⟩ := not_or.1 (List.mem_cons.not.1 hup)
    obtain ⟨ds, hds⟩ := exists_directory_above h
    by_cases hblank : (decide (x = []) || decide (x = ['.'])) = true
    · rw [stepNames_cons_none (ofPiece?_eq_none hblank)] at h ⊢
      rw [List.cons_append, find_here hds hblank, ih hup h]
    · rw [stepNames_cons_name (Step.ofPiece?_eq_name hblank (Ne.symm hx)), List.append_cons] at h ⊢
      obtain ⟨ds', hds'⟩ := exists_directory_above h
      rw [at?_concat hds] at hds'
      rw [List.cons_append, find_within hds hblank (Ne.symm hx) hds' (by simp), ih hup h]

/-- From a place the pieces lead through directories as far as there is anything. -/
structure Opens (root : FileEntry) (place pieces : List Text) : Prop where
  start : ∃ es, root.at? place = some (.directory es)
  straight : ['.', '.'] ∉ pieces
  short : ∀ x ∈ pieces, Text.byteSize x ≤ maxNameBytes
  way : ∀ r, r <+: place ++ stepNames pieces → root.Passable r

theorem Opens.left (h : Opens root place (xs ++ ys)) : Opens root place xs where
  start := h.start
  straight hup := h.straight (List.mem_append_left _ hup)
  short x hx := h.short x (List.mem_append_left _ hx)
  way r hr := by
    refine h.way r (hr.trans ?_)
    rw [stepNames_append]
    exact (List.prefix_append_right_inj _).2 (List.prefix_append _ _)

theorem Opens.paved (h : Opens a place xs) (hp : Paved v a b) (hg : Grown ∅ a b) :
    Opens b place xs where
  start := hg.exists_directory h.start
  straight := h.straight
  short := h.short
  way r hr := (h.way r hr).paved hp hg

private theorem Opens.find_missing (h : Opens root place xs)
    (hnone : root.at? (place ++ stepNames xs) = none) (hys : ∃ y ∈ ys, y ≠ []) :
    find root follow links place (xs ++ ys) = .error .notFound := by
  induction xs generalizing place with
  | nil =>
    obtain ⟨es, hes⟩ := h.start
    rw [stepNames, List.filter_nil, List.append_nil, hes] at hnone
    cases hnone
  | cons x xs ih =>
    obtain ⟨es, hes⟩ := h.start
    obtain ⟨hx, hup⟩ := not_or.1 (List.mem_cons.not.1 h.straight)
    obtain ⟨hshort, hshorts⟩ := List.forall_mem_cons.1 h.short
    have hway := h.way
    by_cases hblank : (decide (x = []) || decide (x = ['.'])) = true
    · rw [stepNames_cons_none (ofPiece?_eq_none hblank)] at hnone hway
      rw [List.cons_append, find_here hes hblank, ih ⟨h.start, hup, hshorts, hway⟩ hnone]
    · rw [stepNames_cons_name (Step.ofPiece?_eq_name hblank (Ne.symm hx)),
        List.append_cons] at hnone hway
      rw [List.cons_append]
      rcases hway _ (List.prefix_append _ _) with hn | ⟨ds, hds⟩
      · have hrest : ¬(xs ++ ys).all (·.isEmpty) = true := by
          obtain ⟨y, hy, hne⟩ := hys
          intro hall
          exact hne (List.isEmpty_iff.1 (List.all_eq_true.1 hall y (List.mem_append_right _ hy)))
        rw [find_absent hes hblank (Ne.symm hx) ((at?_concat hes x).symm.trans hn),
          if_neg (Nat.not_lt.2 hshort), if_neg hrest]
      · rw [find_within hes hblank (Ne.symm hx) ((at?_concat hes x).symm.trans hds) (by simp),
          ih ⟨⟨ds, hds⟩, hup, hshorts, hway⟩ hnone]

theorem find_last (follow : Bool) (links : Nat) (hup : ['.', '.'] ∉ xs ++ [x])
    (hx : Step.ofPiece? x ≠ none) (hshort : Text.byteSize x ≤ maxNameBytes)
    (hes : root.at? (place ++ stepNames xs) = some (.directory es)) :
    (get? x es = none → find root follow links place (xs ++ [x]) =
        .ok (.vacant (place ++ stepNames xs) x)) ∧
      (∀ e, get? x es = some e → (∀ target, e ≠ .link target) →
        find root follow links place (xs ++ [x]) =
          .ok (.entry (place ++ stepNames xs ++ [x]) e links)) := by
  obtain ⟨hups, hup⟩ := not_or.1 (List.mem_append.not.1 hup)
  have hup : ¬x = ['.', '.'] := fun h => hup (h ▸ List.mem_cons_self)
  have hblank : ¬(decide (x = []) || decide (x = ['.'])) = true :=
    fun h => hx (ofPiece?_eq_none h)
  rw [find_through hups hes]
  refine ⟨fun hnone => ?_, fun e he hlink => ?_⟩
  · rw [find_absent hes hblank hup hnone, if_neg (Nat.not_lt.2 hshort)]
    rfl
  · rw [find_within hes hblank hup he hlink, find_nil ((at?_concat hes x).trans he)]

theorem Opens.ensureDirectory (hfault : pathFault? p = none) (hstart : t.start p = place)
    (hpieces : p.pieces = xs ++ [x]) (hx : Step.ofPiece? x ≠ none)
    (ho : Opens t.root place (xs ++ [x]))
    (hes : t.root.at? (place ++ stepNames xs) = some (.directory es)) :
    ∃ t', t.ensureDirectory p = (.ok (), t') ∧
      (∃ ds, t'.root.at? (place ++ stepNames (xs ++ [x])) = some (.directory ds)) ∧
      Paved (place ++ stepNames (xs ++ [x])) t.root t'.root := by
  have hshort := ho.short x (List.mem_append_right _ List.mem_cons_self)
  have hplace := ho.way _ (List.prefix_refl _)
  rw [stepNames_concat hx, ← List.append_assoc] at hplace ⊢
  rw [Passable, at?_concat hes] at hplace
  rcases hplace with hnone | ⟨ds, hds⟩
  · refine ⟨{ t with root := t.root.set (place ++ stepNames xs ++ [x]) (.directory []) }, ?_,
      ⟨[], at?_set_concat hes x _⟩, fun r hr => ?_⟩
    · rw [FileTree.ensureDirectory, makeDirectory, make, lookup, hfault, hpieces, hstart]
      dsimp only
      rw [(find_last _ _ ho.straight hx hshort hes).1 hnone]
    · have hbare (s : List Text) (hs : s ≠ []) : (FileEntry.directory []).at? s = none := by
        obtain ⟨m, s, rfl⟩ := List.exists_cons_of_ne_nil hs
        rfl
      refine (at?_set_bare hes hbare hr).imp_right ?_
      rintro rfl
      exact ⟨List.prefix_refl _, [], at?_set_concat hes x _⟩
  · have hfind := (find_last true maxLinks ho.straight hx hshort hes).2 _ hds (by simp)
    rw [← hpieces, ← hstart] at hfind
    exact ⟨t, ensureDirectory_present hfault hfind, ⟨ds, (at?_concat hes x).trans hds⟩, .refl _ _⟩

private theorem Opens.ensureDirectory_missing (hfault : pathFault? p = none)
    (hstart : t.start p = place) (hpieces : p.pieces = xs ++ [x]) (hx : Step.ofPiece? x ≠ none)
    (ho : Opens t.root place xs) (hnone : t.root.at? (place ++ stepNames xs) = none) :
    t.ensureDirectory p = (.error .notFound, t) := by
  have hne : x ≠ [] := by
    rintro rfl
    exact hx rfl
  have hfind (follow : Bool) : t.lookup follow p = .error .notFound := by
    rw [lookup, hfault, hpieces, hstart]
    exact ho.find_missing hnone ⟨x, List.mem_cons_self, hne⟩
  simp [FileTree.ensureDirectory, makeDirectory, make, isDirectory, get, hfind]

theorem Opens.ensurePieces (hslash : ∀ x ∈ above, '/' ∉ x)
    (ht : (Path.ofPieces above.reverse).text <+: p.text) (hp : pathFault? p = none)
    (ho : Opens t.root (t.start p) above.reverse) :
    ∃ t', t.ensurePieces above = (.ok (), t') ∧
      (∃ es, t'.root.at? (t.start p ++ stepNames above.reverse) = some (.directory es)) ∧
      Paved (t.start p ++ stepNames above.reverse) t.root t'.root := by
  induction above with
  | nil =>
    obtain ⟨es, hes⟩ := ho.start
    exact ⟨t, rfl, ⟨es, by simpa [stepNames] using hes⟩, .refl _ _⟩
  | cons x above ih =>
    rw [List.reverse_cons] at ho ⊢
    have hslashes := (List.forall_mem_cons.1 hslash).2
    have hts : (Path.ofPieces above.reverse).text <+: p.text := by
      rw [List.reverse_cons] at ht
      exact (Path.ofPieces_append_prefix _ _).trans ht
    rw [FileTree.ensurePieces]
    split
    · rename_i hx
      rw [stepNames_append, stepNames_cons_none (Option.isNone_iff_eq_none.1 hx), stepNames.eq_1 [],
        List.filter_nil, List.append_nil]
      exact ih hslashes hts ho.left
    · rename_i hx
      have hx := mt Option.isNone_iff_eq_none.2 hx
      obtain ⟨hpieces, hfault, hstart⟩ := ofPieces_reverse (t := t) hx hslash ht hp
      dsimp only
      rcases ho.left.way _ (List.prefix_refl _) with hnone | ⟨es, hes⟩
      · obtain ⟨t₁, hmade, ⟨es, hes⟩, hpaved⟩ := ih hslashes hts ho.left
        have hgrows : Grows ∅ t t₁ := by simpa [hmade] using grows_ensurePieces t above
        obtain ⟨t₂, hlast, hthere, hpaved'⟩ := Opens.ensureDirectory (t := t₁) hfault
          ((hgrows.start _).trans hstart) hpieces hx (ho.paved hpaved hgrows.root) hes
        have hgrows' : Grows ∅ t₁ t₂ := by
          have h := grows_ensureDirectory t₁ (Path.ofPieces (x :: above).reverse)
          rwa [hlast] at h
        rw [ho.left.ensureDirectory_missing hfault hstart hpieces hx hnone]
        dsimp only
        rw [hmade]
        refine ⟨t₂, hlast, hthere, hpaved.trans hpaved' hgrows'.root ?_⟩
        rw [stepNames_append]
        exact (List.prefix_append_right_inj _).2 (List.prefix_append _ _)
      · obtain ⟨t', hmade, hthere, hpaved⟩ :=
          Opens.ensureDirectory hfault hstart hpieces hx ho hes
        rw [hmade]
        exact ⟨t', rfl, hthere, hpaved⟩

/-- A file can be put where a path leads: nothing is in the place but a file, and nothing on the
way but directories. -/
structure Room (t : FileTree) (p : Path) : Prop where
  fault : pathFault? p = none
  start : ∃ es, t.root.at? (t.start p) = some (.directory es)
  straight : ['.', '.'] ∉ p.pieces
  short : ∀ x ∈ p.pieces, Text.byteSize x ≤ maxNameBytes
  named : ∀ x ∈ p.pieces.getLast?, Step.ofPiece? x ≠ none
  way : ∀ r, r <+: t.lands p → r ≠ t.lands p → t.root.Passable r
  free : t.root.Fillable (t.lands p)

private theorem above_eq (hpieces : p.pieces = xs ++ [x]) (hx : Step.ofPiece? x ≠ none) :
    p.above = xs.reverse := by
  have hsome : ¬(Step.ofPiece? x).isNone = true := mt Option.isNone_iff_eq_none.1 hx
  rw [Path.above, hpieces, List.reverse_append, List.reverse_singleton, List.singleton_append,
    List.dropWhile_cons_of_neg (by exact hsome), List.drop_one, List.tail_cons]

private theorem write_last (hfault : pathFault? p = none) (hstart : t.start p = place)
    (hpieces : p.pieces = xs ++ [x]) (hx : Step.ofPiece? x ≠ none) (hup : ['.', '.'] ∉ xs ++ [x])
    (hshort : Text.byteSize x ≤ maxNameBytes)
    (hes : t.root.at? (place ++ stepNames xs) = some (.directory es))
    (hfree : t.root.Fillable (place ++ stepNames xs ++ [x])) (content : ByteArray) :
    t.write p content =
      .ok { t with root := t.root.set (place ++ stepNames xs ++ [x]) (.file content) } := by
  rw [Fillable, at?_concat hes] at hfree
  rw [write, lookup, hfault, hpieces, hstart]
  dsimp only
  rcases hfree with hnone | ⟨s, hs⟩
  · rw [(find_last _ _ hup hx hshort hes).1 hnone]
  · rw [(find_last _ _ hup hx hshort hes).2 _ hs (by simp)]

theorem Room.exists_pieces (h : t.Room p) :
    ∃ xs x, p.pieces = xs ++ [x] ∧ Step.ofPiece? x ≠ none ∧
      t.lands p = t.start p ++ stepNames xs ++ [x] := by
  have hpieces := (List.dropLast_concat_getLast p.pieces_ne_nil).symm
  have hx : Step.ofPiece? (p.pieces.getLast p.pieces_ne_nil) ≠ none :=
    h.named _ (List.getLast?_eq_getLast_of_ne_nil _)
  refine ⟨_, _, hpieces, hx, ?_⟩
  rw [lands_eq h.straight, List.append_assoc, ← stepNames_concat hx, ← hpieces]

theorem ne_of_prefix {r : List Text} (hr : r <+: v) : r ≠ v ++ [x] := by
  rintro rfl
  have hle := hr.length_le
  rw [List.length_append, List.length_singleton] at hle
  omega

theorem Room.ensurePieces (h : t.Room p) (hpieces : p.pieces = xs ++ [x])
    (hx : Step.ofPiece? x ≠ none) (hlands : t.lands p = t.start p ++ stepNames xs ++ [x]) :
    ∃ t', t.ensurePieces p.above = (.ok (), t') ∧
      (∃ es, t'.root.at? (t.start p ++ stepNames xs) = some (.directory es)) ∧
      Paved (t.start p ++ stepNames xs) t.root t'.root := by
  have hmem {y : Text} (hy : y ∈ xs) : y ∈ p.pieces := by
    rw [hpieces]
    exact List.mem_append_left _ hy
  have ho : Opens t.root (t.start p) xs := by
    refine ⟨h.start, fun hup => h.straight (hmem hup), fun y hy => h.short y (hmem hy),
      fun r hr => h.way r ?_ ?_⟩ <;> rw [hlands]
    · exact hr.trans (List.prefix_append _ _)
    · exact ne_of_prefix hr
  have htext : (Path.ofPieces xs).text <+: p.text := by
    have hprefix := Path.ofPieces_append_prefix xs [x]
    rwa [← hpieces, Path.ofPieces_pieces] at hprefix
  rw [above_eq hpieces hx]
  have hslash : ∀ y ∈ xs.reverse, '/' ∉ y :=
    fun y hy => Text.not_mem_of_mem_splitOn (hmem (List.mem_reverse.1 hy))
  have hmade := Opens.ensurePieces hslash (by rwa [List.reverse_reverse]) h.fault
    (by rwa [List.reverse_reverse])
  rwa [List.reverse_reverse] at hmade

/-- The file is written, and nothing is added but what was missing on the way. -/
theorem Room.writeBelow (h : t.Room p) (hroot : t.root.Linkless) (content : ByteArray) :
    ∃ t', t.writeBelow p content = (.ok (), t') ∧
      t'.root.at? (t.lands p) = some (.file content) ∧
      ∀ r, t.root.at? r = none → t'.root.at? r = none ∨
        r <+: t.lands p ∧ (r ≠ t.lands p → ∃ es, t'.root.at? r = some (.directory es)) := by
  obtain ⟨xs, x, hpieces, hx, hlands⟩ := h.exists_pieces
  obtain ⟨t₁, hmade, ⟨es, hes⟩, hpaved⟩ := h.ensurePieces hpieces hx hlands
  have hgrows : Grows ∅ t t₁ := by
    have hg := grows_ensurePieces t p.above
    rwa [hmade] at hg
  have hfree : t₁.root.Fillable (t.start p ++ stepNames xs ++ [x]) := by
    rw [← hlands]
    exact h.free.paved hpaved hgrows.root fun hr => ne_of_prefix hr hlands
  have hshort : Text.byteSize x ≤ maxNameBytes :=
    h.short x (hpieces ▸ List.mem_append_right _ List.mem_cons_self)
  have hwrite := write_last h.fault (hgrows.start p) hpieces hx (hpieces ▸ h.straight) hshort hes
    hfree content
  have hwritten := grows_write (hgrows.linkless hroot) hwrite
  rw [FileTree.writeBelow, hmade, hlands]
  dsimp only
  rw [hwrite]
  refine ⟨_, rfl, at?_set_concat hes x _, fun r hr => ?_⟩
  rcases hpaved r hr with hnone | ⟨hway, ds, hds⟩
  · refine (at?_set_bare hes (fun s hs => ?_) hnone).imp_right ?_
    · obtain ⟨m, s, rfl⟩ := List.exists_cons_of_ne_nil hs
      rfl
    · rintro rfl
      exact ⟨List.prefix_refl _, absurd rfl⟩
  · obtain ⟨ds', hds', -⟩ := hwritten.root.directory hds
    exact .inr ⟨hway.trans (List.prefix_append _ _), fun _ => ⟨ds', hds'⟩⟩

/-- There is still room for a file, unless one of the places is on the way to the other. -/
theorem Room.of_writeBelow (hp : t.Room p) (hq : t.Room q) (hroot : t.root.Linkless)
    (hpq : t.lands p <+: t.lands q → t.lands p = t.lands q)
    (hqp : t.lands q <+: t.lands p → t.lands q = t.lands p) (content : ByteArray) :
    (t.writeBelow p content).2.Room q := by
  obtain ⟨t', hwrite, hfile, hadded⟩ := hp.writeBelow hroot content
  have hgrows := grows_writeBelow hroot p content
  rw [hwrite] at hgrows ⊢
  refine ⟨hq.fault, ?_, hq.straight, hq.short, hq.named, fun r hr hne => ?_, ?_⟩
  · rw [hgrows.start]
    exact hgrows.root.exists_directory hq.start
  · rw [hgrows.lands] at hr hne
    rcases hq.way r hr hne with hnone | hes
    · refine (hadded r hnone).imp_right fun h => h.2 ?_
      rintro rfl
      exact hne (hpq hr)
    · exact .inr (hgrows.root.exists_directory hes)
  · rw [hgrows.lands]
    rcases hq.free with hnone | hs
    · refine (hadded _ hnone).imp_right fun h => ?_
      rw [hqp h.1]
      exact ⟨content, hfile⟩
    · exact .inr (hgrows.root.exists_file hs)

end FileTree
end MailMarkup
