import MailMarkup.Proofs.Rule.OpeningTags

/-!
# The patterns for tags with listed names

What the patterns for opening and closing tags are read as, for any list of names that can stand in
a pattern, and what they match: where a match starts, how far it goes and what its groups hold.
-/
namespace MailMarkup.Tags
open Pattern Forbidden

/-- Names from which a pattern for tags can be written. -/
structure Listed (tags : List String) : Prop where
  ne_nil : tags ≠ []
  few : tags.length ≤ 17
  names : ∀ tag ∈ tags, IsName tag.toList

theorem listed_of_mem {tags : List String} (h : tags ∈ [headings, ["p"], blocks]) :
    Listed tags := by
  simp only [List.mem_cons, List.not_mem_nil, or_false] at h
  rcases h with rfl | rfl | rfl
  all_goals exact ⟨by decide +kernel, by decide +kernel, .of_all (by decide +kernel)⟩

/-- One of the names, as the first group. -/
def nameGroup (tags : List String) : Expr :=
  .group 1 (.alternatives ((tags.map String.toList).map .word))

/-- An opening tag after its bracket. -/
def openingParts (tags : List String) : List Expr :=
  tagParts (.alternatives ((tags.map String.toList).map .word))

/-- A closing tag after its bracket. -/
def closingParts (tags : List String) : List Expr :=
  [.letter '/', nameGroup tags, .repeated (.one (Source.blankSet .wide)) 0 none true, .letter '>']

section reading
variable {tags : List String}

theorem weight_nameGroup (h : Listed tags) : (nameGroup tags).weight ≤ 752 * 18 := by
  have hword : ∀ e ∈ (tags.map String.toList).map Expr.word, e.weight ≤ 750 := by
    refine List.forall_mem_map.2 (List.forall_mem_map.2 fun tag ht => ?_)
    have hname := h.names tag ht
    have hle := Expr.weight_word_le fun c hc => (hname.folded c hc).1
    have hshort := hname.short
    omega
  have hle := Expr.weight_alternatives_le hword
  have hfew := h.few
  rw [List.length_map, List.length_map] at hle
  have : (nameGroup tags).weight =
    (Expr.alternatives ((tags.map String.toList).map .word)).weight + 2 := rfl
  omega

private def openingPieces (w : Text) (ws : List Text) : List Source.Piece :=
  [Source.letter '>', ⟨.group 3 (.repeated (.letter '/') 0 (some 1) true), 2, false⟩,
    ⟨.group 2 (.repeated (.one notAngle) 0 none false), 4, false⟩,
    ⟨.edge (.wordEdge .wide), 0, false⟩, Source.wordGroup 1 w ws, Source.letter '<']

private theorem ends_opening {w : Text} {ws : List Text} (hne : w ≠ [])
    (hw : ∀ v ∈ w :: ws, ∀ c ∈ v, Source.isPlain c) :
    ∃ s, Source.Ends 0 .anyCase
      ⟨'<' :: '(' :: (w ++ (ws.flatMap ('|' :: ·) ++ ')' :: '\\' :: 'b' :: '(' :: '[' :: '^' ::
        '<' :: '>' :: ']' :: '*' :: '?' :: ')' :: '(' :: '/' :: '?' :: ')' :: ['>'])), 0, 0, []⟩
      [] []
      (Source.alternatives [] (openingPieces w ws), s) := by
  apply Exists.intro
  refine .letter rfl rfl (.wordGroup rfl hne hw ?_)
  refine .primitive (w := ['b']) (by decide) rfl ?_
  refine .group (by simp) (.primitive (w := ['^', '<', '>', ']']) (p := ⟨.one notAngle, 2, false⟩)
    (by decide) (by cbv) (.reluctant rfl .close)) (by decide) ?_
  refine .group (by simp) (.letter rfl rfl (.optional rfl (by simp) .close)) (by decide) ?_
  exact .letter rfl rfl .stop

private def closingPieces (w : Text) (ws : List Text) : List Source.Piece :=
  [Source.letter '>', ⟨.repeated (.one (Source.blankSet .wide)) 0 none true, 1, false⟩,
    Source.wordGroup 1 w ws, Source.letter '/', Source.letter '<']

private theorem ends_closing {w : Text} {ws : List Text} (hne : w ≠ [])
    (hw : ∀ v ∈ w :: ws, ∀ c ∈ v, Source.isPlain c) :
    ∃ s, Source.Ends 0 .anyCase
      ⟨'<' :: '/' :: '(' :: (w ++ (ws.flatMap ('|' :: ·) ++ ')' :: '\\' :: 's' :: '*' :: ['>'])),
        0, 0, []⟩ [] [] (Source.alternatives [] (closingPieces w ws), s) := by
  apply Exists.intro
  refine .letter rfl rfl (.letter rfl rfl (.wordGroup rfl hne hw ?_))
  refine .primitive (w := ['s']) (by decide) rfl ?_
  exact .star rfl (by simp) (.letter rfl rfl .stop)

/-- Names as the first and the others, and what the pattern needs of each. -/
theorem Listed.cons (h : Listed tags) : ∃ tag rest, tags = tag :: rest ∧
    tag.toList ≠ [] ∧ ∀ v ∈ tag.toList :: rest.map String.toList, ∀ c ∈ v, Source.isPlain c := by
  obtain ⟨tag, rest, rfl⟩ := List.exists_cons_of_ne_nil h.ne_nil
  refine ⟨tag, rest, rfl, (h.names tag List.mem_cons_self).ne_nil, ?_⟩
  rw [← List.map_cons]
  exact List.forall_mem_map.2 fun tag ht => (h.names tag ht).plain

theorem read_opening (h : Listed tags) :
    Source.read (opening tags).toList .anyCase = .ok (opened (openingParts tags)) := by
  have hgroup := weight_nameGroup h
  obtain ⟨tag, rest, rfl, hne, hplain⟩ := h.cons
  obtain ⟨s, hs⟩ := ends_opening hne hplain
  have hsource : (opening (tag :: rest)).toList = '<' :: '(' :: (tag.toList ++
      ((rest.map String.toList).flatMap ('|' :: ·) ++ ')' :: '\\' :: 'b' :: '(' :: '[' :: '^' ::
        '<' :: '>' :: ']' :: '*' :: '?' :: ')' :: '(' :: '/' :: '?' :: ')' :: ['>'])) := by
    simp [opening, toList_alternatives]
  have hexpr : .sequence ((openingPieces tag.toList (rest.map String.toList)).reverse.map
      Source.Piece.expr) = opened (openingParts (tag :: rest)) := by
    simp only [openingPieces, List.reverse_cons, List.reverse_nil, List.nil_append,
      List.cons_append, List.map_cons, Source.expr_wordGroup]
    rfl
  have hlow : Source.Low 4 (openingPieces tag.toList (rest.map String.toList)) := by
    simp only [openingPieces, Source.Low, List.forall_mem_cons]
    exact ⟨Nat.zero_le _, by decide, by decide, by decide,
      Nat.le_succ_of_le (Source.height_wordGroup ..), Nat.zero_le _,
      fun _ h => absurd h List.not_mem_nil⟩
  have hweight : (opened (openingParts (tag :: rest))).weight ≤ 752 * 18 * 6 := by
    have hslash := Expr.weight_letter (c := '/') (by decide)
    have hend := Expr.weight_letter (c := '>') (by decide)
    refine weight_opened_le (by decide) ?_
    simp only [openingParts, tagParts, List.forall_mem_cons]
    refine ⟨hgroup, by decide, by decide, ?_, Nat.le_trans hend (by decide),
      fun _ h => absurd h List.not_mem_nil⟩
    simp only [Expr.weight]
    omega
  rw [hsource, ← hexpr]
  refine Source.read_of_ends hs hlow (by decide) ?_
  rw [hexpr]
  calc Source.nodeSize * (opened (openingParts (tag :: rest))).weight
      ≤ Source.nodeSize * (752 * 18 * 6) := Nat.mul_le_mul_left _ hweight
    _ ≤ sizeLimit := by decide

theorem read_closing (h : Listed tags) :
    Source.read (closing tags).toList .anyCase = .ok (opened (closingParts tags)) := by
  have hgroup := weight_nameGroup h
  obtain ⟨tag, rest, rfl, hne, hplain⟩ := h.cons
  obtain ⟨s, hs⟩ := ends_closing hne hplain
  have hsource : (closing (tag :: rest)).toList = '<' :: '/' :: '(' :: (tag.toList ++
      ((rest.map String.toList).flatMap ('|' :: ·) ++ ')' :: '\\' :: 's' :: '*' :: ['>'])) := by
    simp [closing, toList_alternatives]
  have hexpr : .sequence ((closingPieces tag.toList (rest.map String.toList)).reverse.map
      Source.Piece.expr) = opened (closingParts (tag :: rest)) := by
    simp only [closingPieces, List.reverse_cons, List.reverse_nil, List.nil_append,
      List.cons_append, List.map_cons, Source.expr_wordGroup]
    rfl
  have hlow : Source.Low 3 (closingPieces tag.toList (rest.map String.toList)) := by
    simp only [closingPieces, Source.Low, List.forall_mem_cons]
    exact ⟨Nat.zero_le _, by decide, Source.height_wordGroup .., Nat.zero_le _, Nat.zero_le _,
      fun _ h => absurd h List.not_mem_nil⟩
  have hweight : (opened (closingParts (tag :: rest))).weight ≤ 752 * 18 * 5 := by
    have hslash := Expr.weight_letter (c := '/') (by decide)
    have hend := Expr.weight_letter (c := '>') (by decide)
    refine weight_opened_le (by decide) ?_
    simp only [closingParts, List.forall_mem_cons]
    exact ⟨Nat.le_trans hslash (by decide), hgroup, by decide, Nat.le_trans hend (by decide),
      fun _ h => absurd h List.not_mem_nil⟩
  rw [hsource, ← hexpr]
  refine Source.read_of_ends hs hlow (by decide) ?_
  rw [hexpr]
  calc Source.nodeSize * (opened (closingParts (tag :: rest))).weight
      ≤ Source.nodeSize * (752 * 18 * 5) := Nat.mul_le_mul_left _ hweight
    _ ≤ sizeLimit := by decide

theorem ordered_nameGroup (tags : List String) : (nameGroup tags).Ordered :=
  Expr.ordered_alternatives (List.forall_mem_map.2 fun w _ => Expr.ordered_word w)

theorem ordered_opening (tags : List String) : (opened (openingParts tags)).Ordered := by
  have hset : notAngle.Ordered := by decide
  refine ordered_opened ?_
  simp only [openingParts, tagParts, List.forall_mem_cons]
  exact ⟨ordered_nameGroup tags, trivial, hset, Expr.ordered_letter _, Expr.ordered_letter _, nofun⟩

theorem ordered_closing (tags : List String) : (opened (closingParts tags)).Ordered := by
  have hset : (Source.blankSet .wide).Ordered := by decide
  refine ordered_opened ?_
  simp only [closingParts, List.forall_mem_cons]
  exact ⟨Expr.ordered_letter _, ordered_nameGroup tags, hset, Expr.ordered_letter _, nofun⟩

end reading
section matching
open Expr
variable {tags : List String} {c : Cursor} {m : Match} {name body slash r : Text}

/-- The parts of an opening tag with one of the names. -/
structure IsOpening (tags : List String) (name body slash : Text) : Prop where
  name : ∃ tag ∈ tags, name.map Text.fold = tag.toList
  edge : ∀ x ∈ body.head?, Text.isWord x = false
  body : ∀ x ∈ body, x ≠ '<' ∧ x ≠ '>'
  slash : slash = [] ∨ slash = ['/']

/-- The names in any case. -/
def nameForms (tags : List String) : Language Char :=
  {v : Text | ∃ w ∈ tags.map String.toList, v ∈ spellings w}

theorem mem_nameForms : name ∈ nameForms tags ↔ ∃ tag ∈ tags, name.map Text.fold = tag.toList := by
  constructor
  · rintro ⟨_, hw, hn⟩
    obtain ⟨tag, ht, rfl⟩ := List.mem_map.1 hw
    exact ⟨tag, ht, hn⟩
  · rintro ⟨tag, ht, hn⟩
    exact ⟨_, List.mem_map_of_mem ht, hn⟩

theorem spells_name (h : Listed tags) :
    (Expr.alternatives ((tags.map String.toList).map word)).Spells (nameForms tags) :=
  spells_alternatives (by simpa using h.ne_nil)
    (List.forall_mem_map.2 fun tag ht => (h.names tag ht).folded)

theorem notes_name (h : Listed tags) {t u : Trail}
    (hr : (Expr.alternatives ((tags.map String.toList).map word)).Reads t u) :
    u.notes = t.notes := by
  obtain ⟨e, he, hr⟩ := (reads_alternatives_iff (by simpa using h.ne_nil)).1 hr
  obtain ⟨w, -, rfl⟩ := List.mem_map.1 he
  exact hr.notes_eq (groupFree_word w)

theorem namePart (h : Listed tags) :
    NamePart (.alternatives ((tags.map String.toList).map word)) (nameForms tags) where
  spells := spells_name h
  silent := notes_name h
  ne_nil v hv := by
    obtain ⟨tag, ht, hn⟩ := mem_nameForms.1 hv
    rintro rfl
    exact (h.names tag ht).ne_nil hn.symm
  word v hv x hx := by
    obtain ⟨tag, ht, hn⟩ := mem_nameForms.1 hv
    have hmem : Text.fold x ∈ tag.toList := hn ▸ List.mem_map_of_mem hx
    exact isWord_of_fold ((h.names tag ht).folded _ hmem) ((h.names tag ht).word _ hmem)

theorem opening_sound (h : Listed tags)
    (hr : (opened (openingParts tags)).Reads ⟨m.start, []⟩ ⟨m.stop, m.notes⟩) :
    IsOpening tags (m.group 1) (m.group 2) (m.group 3) ∧
      m.start.rest =
        '<' :: (m.group 1 ++ (m.group 2 ++ (m.group 3 ++ '>' :: m.stop.rest))) := by
  obtain ⟨ho, hrest⟩ := (namePart h).sound hr
  exact ⟨⟨mem_nameForms.1 ho.name, ho.edge, ho.body, ho.slash⟩, hrest⟩

theorem opening_complete (h : Listed tags) (ho : IsOpening tags name body slash)
    (hc : c.rest = '<' :: (name ++ (body ++ (slash ++ '>' :: r)))) :
    (opened (openingParts tags)).MatchesAt c :=
  (namePart h).complete ⟨mem_nameForms.2 ho.name, ho.edge, ho.body, ho.slash⟩ hc

/-- The closing tags with one of the names. -/
def closings (tags : List String) : Language Char :=
  spellings ['<'] * (spellings ['/'] *
    (nameForms tags * (runs (Source.blankSet .wide) * spellings ['>'])))

theorem spells_closing (h : Listed tags) : (opened (closingParts tags)).Spells (closings tags) :=
  .cons (spells_letter (by decide)) (.cons (spells_letter (by decide))
    (.cons (.group 1 (spells_name h)) (.cons (spells_runs _ true) (spells_letter (by decide)))))

theorem mem_closings {v : Text} : v ∈ closings tags ↔ ∃ name blanks : Text,
    (∃ tag ∈ tags, name.map Text.fold = tag.toList) ∧
    (∀ x ∈ blanks, (Source.blankSet .wide).has x) ∧
    v = '<' :: '/' :: (name ++ (blanks ++ ['>'])) := by
  have hmark : ∀ c ∈ ['<', '>', '/', '=', '"', '\''], ([c] : Text) ∈ spellings [c] :=
    fun c hc => (mem_spellings_mark hc).2 rfl
  constructor
  · intro hv
    obtain ⟨_, h₁, _, hv₁, rfl⟩ := Language.mem_mul.1 hv
    obtain ⟨_, h₂, _, hv₂, rfl⟩ := Language.mem_mul.1 hv₁
    obtain ⟨name, hn, _, hv₃, rfl⟩ := Language.mem_mul.1 hv₂
    obtain ⟨blanks, hb, _, h₃, rfl⟩ := Language.mem_mul.1 hv₃
    rw [mem_spellings_mark (by simp)] at h₁ h₂ h₃
    exact ⟨name, blanks, mem_nameForms.1 hn, hb, by rw [h₁, h₂, h₃]; rfl⟩
  · rintro ⟨name, blanks, hn, hb, rfl⟩
    exact Language.append_mem_mul (hmark '<' (by simp)) <|
      Language.append_mem_mul (hmark '/' (by simp)) <|
      Language.append_mem_mul (mem_nameForms.2 hn) <|
      Language.append_mem_mul hb (hmark '>' (by simp))

end matching
end MailMarkup.Tags
