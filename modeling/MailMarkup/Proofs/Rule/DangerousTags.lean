import Mathlib
import MailMarkup.Proofs.Pattern.Spelling
import MailMarkup.Rule.Forbidden

/-!
# The patterns for dangerous tags

What the written patterns are read as, and what they match. The pattern for a whole element takes a
text that ends with a dangerous tag. The pattern for what is left takes exactly the opening and
closing tags of dangerous elements.
-/
namespace MailMarkup.Forbidden
open Pattern

/-- All characters but angle brackets. -/
def notAngle : CharSet := CharSet.compl ⟨[(60, 60), (62, 62)]⟩

/-- All characters but the closing angle bracket. -/
def notClosing : CharSet := CharSet.compl ⟨[(62, 62)]⟩

/-- A name that can stand in a pattern as it is. -/
structure IsName (w : Text) : Prop where
  ne_nil : w ≠ []
  short : w.length ≤ 50
  plain : ∀ c ∈ w, Source.isPlain c
  folded : ∀ c ∈ w, Expr.IsFolded c
  word : ∀ c ∈ w, Text.isWord c

/-- Whether a text is such a name. -/
def isName (w : Text) : Bool :=
  !w.isEmpty && w.length ≤ 50 &&
    w.all fun c => Source.isPlain c && decide (Expr.IsFolded c) && Text.isWord c

theorem IsName.of_all {tags : List String} (h : tags.all fun tag => isName tag.toList) :
    ∀ tag ∈ tags, IsName tag.toList := by
  intro tag ht
  have htag := List.all_eq_true.1 h tag ht
  simp only [isName, Bool.and_eq_true, Bool.not_eq_true', List.isEmpty_eq_false_iff,
    decide_eq_true_eq, List.all_eq_true] at htag
  obtain ⟨⟨hne, hshort⟩, hc⟩ := htag
  exact ⟨hne, hshort, fun c h => (hc c h).1.1, fun c h => (hc c h).1.2, fun c h => (hc c h).2⟩

theorem isName_of_mem {tag : String} (h : tag ∈ Tags.dangerous) : IsName tag.toList :=
  .of_all (by decide +kernel) tag h

/-- What follows an opening bracket in a pattern, with the bracket. -/
def opened (as : List Expr) : Expr := .sequence (.letter '<' :: as)

/-- The closing tag of an element. -/
def closingParts (tag : Text) : List Expr :=
  .letter '<' :: .letter '/' ::
    (tag.map Expr.letter ++
      [Expr.repeated (.one (Source.blankSet .wide)) 0 none true, Expr.letter '>'])

/-- The opening tag of an element after its bracket, and the content. -/
def openingParts (tag : Text) : List Expr :=
  tag.map Expr.letter ++ [Expr.edge (.wordEdge .wide),
    Expr.repeated (.one notClosing) 0 none true, Expr.letter '>',
    Expr.repeated (.one .all) 0 none false]

def wholeParts (tag : Text) : List Expr := openingParts tag ++ closingParts tag

def leftoverParts : List Expr :=
  [.repeated (.letter '/') 0 (some 1) true,
    .group 1 (.choice ((Tags.dangerous.map String.toList).map .word)),
    .edge (.wordEdge .wide), .repeated (.one notAngle) 0 none true, .letter '>']

private theorem forall_wholeParts {P : Expr → Prop} {tag : Text} (ht : ∀ c ∈ tag, Expr.IsFolded c)
    (hl : ∀ c, Expr.IsFolded c → P (.letter c)) (he : P (.edge (.wordEdge .wide)))
    (hr : ∀ set ∈ [notClosing, .all, Source.blankSet .wide], ∀ greedy,
      P (.repeated (.one set) 0 none greedy)) : ∀ a ∈ wholeParts tag, P a := by
  have hname : ∀ a ∈ tag.map Expr.letter, P a := List.forall_mem_map.2 fun c hc => hl c (ht c hc)
  simp only [wholeParts, openingParts, closingParts, List.forall_mem_append, List.forall_mem_cons]
  exact ⟨⟨hname, he, hr _ (by simp) _, hl '>' (by decide), hr _ (by simp) _, nofun⟩,
    hl '<' (by decide), hl '/' (by decide), hname, hr _ (by simp) _, hl '>' (by decide), nofun⟩

theorem weight_opened_le {k : Nat} {as : List Expr} (hk : 15 ≤ k)
    (h : ∀ a ∈ as, a.weight ≤ k) : (opened as).weight ≤ k * (as.length + 1) :=
  Expr.weight_sequence_le <| List.forall_mem_cons.2
    ⟨Nat.le_trans (Expr.weight_letter (by decide)) hk, h⟩

private theorem weight_whole {tag : Text} (h : IsName tag) :
    (opened (wholeParts tag)).weight ≤ 15 * 112 := by
  have hrun : ∀ set ∈ [notClosing, .all, Source.blankSet .wide], ∀ greedy,
      (Expr.repeated (.one set) 0 none greedy).weight ≤ 15 := by decide
  have hweight := weight_opened_le (Nat.le_refl 15) <|
    forall_wholeParts h.folded (fun c hc => Expr.weight_letter hc.1) (by decide) hrun
  have hlength : (wholeParts tag).length ≤ 111 := by
    have := h.short
    simp [wholeParts, openingParts, closingParts]
    omega
  omega

private theorem weight_leftover : (opened leftoverParts).weight ≤ (751 * 17 + 2) * 6 := by
  refine weight_opened_le (by decide) ?_
  simp only [leftoverParts, List.forall_mem_cons]
  refine ⟨?_, ?_, by decide, by decide, ?_, nofun⟩
  · have := Expr.weight_letter (c := '/') (by decide)
    simp only [Expr.weight]
    omega
  · have hchoice : (Expr.choice ((Tags.dangerous.map String.toList).map .word)).weight ≤
        751 * 17 := by
      refine Expr.weight_choice_le (List.forall_mem_map.2 (List.forall_mem_map.2 fun tag h => ?_))
      have hname := isName_of_mem h
      have hle := Expr.weight_word_le fun c hc => (hname.folded c hc).1
      have hshort := hname.short
      omega
    exact Nat.add_le_add_right hchoice 2
  · exact Nat.le_trans (Expr.weight_letter (by decide)) (by decide)

theorem ordered_opened {as : List Expr} (h : ∀ a ∈ as, a.Ordered) : (opened as).Ordered :=
  Expr.ordered_sequence (List.forall_mem_cons.2 ⟨Expr.ordered_letter _, h⟩)

theorem ordered_whole {tag : Text} (h : IsName tag) : (opened (wholeParts tag)).Ordered := by
  have hset : ∀ set ∈ [notClosing, .all, Source.blankSet .wide], set.Ordered := by decide
  exact ordered_opened <| forall_wholeParts h.folded (fun c _ => Expr.ordered_letter c) trivial
    fun set hs _ => hset set hs

theorem ordered_leftover : (opened leftoverParts).Ordered := by
  refine ordered_opened ?_
  simp only [leftoverParts, List.forall_mem_cons]
  refine ⟨Expr.ordered_letter _, Expr.ordered_choice ?_, trivial, ?_, Expr.ordered_letter _, nofun⟩
  · exact List.forall_mem_map.2 fun w _ => Expr.ordered_word w
  · have hset : notAngle.Ordered := by decide
    exact hset

section reading

private def wholePieces (tag : Text) : List Source.Piece :=
  Source.letter '>' :: ⟨.repeated (.one (Source.blankSet .wide)) 0 none true, 1, false⟩ ::
    Source.letters tag (Source.letter '/' :: Source.letter '<' ::
      ⟨.repeated (.one .all) 0 none false, 1, false⟩ ::
      Source.letter '>' :: ⟨.repeated (.one notClosing) 0 none true, 2, false⟩ ::
      ⟨.edge (.wordEdge .wide), 0, false⟩ :: Source.letters tag [Source.letter '<'])

private theorem ends_whole {tag t : Text} (ht : ∀ c ∈ tag, Source.isPlain c)
    (hend : t = tag ++ ['\\', 's', '*', '>']) :
    ∃ s, Source.Ends 0 .spanning
      ⟨'<' :: (tag ++ ('\\' :: 'b' :: '[' :: '^' :: '>' :: ']' :: '*' :: '>' :: '.' :: '*' :: '?' ::
        '<' :: '/' :: t)), 0, 0, []⟩ [] [] (Source.alternatives [] (wholePieces tag), s) := by
  apply Exists.intro
  refine .letter rfl rfl (.word rfl ht ?_)
  refine .primitive (w := ['b']) (by decide) rfl ?_
  refine .primitive (w := ['^', '>', ']']) (p := ⟨.one notClosing, 1, false⟩) (by decide)
    (by cbv) ?_
  refine .star rfl (by simp) (.letter rfl rfl ?_)
  refine .primitive (w := []) (by decide) rfl ?_
  refine .reluctant rfl (.letter rfl rfl (.letter rfl rfl ?_))
  subst hend
  refine .word rfl ht ?_
  refine .primitive (w := ['s']) (by decide) rfl ?_
  exact .star rfl (by simp) (.letter rfl rfl .stop)

private def leftoverPieces (w : Text) (ws : List Text) : List Source.Piece :=
  [Source.letter '>', ⟨.repeated (.one notAngle) 0 none true, 3, false⟩,
    ⟨.edge (.wordEdge .wide), 0, false⟩, Source.wordGroup 1 w ws,
    ⟨.repeated (.letter '/') 0 (some 1) true, 1, false⟩, Source.letter '<']

private theorem ends_leftover {w : Text} {ws : List Text} (hne : w ≠ [])
    (hw : ∀ v ∈ w :: ws, ∀ c ∈ v, Source.isPlain c) :
    ∃ s, Source.Ends 0 .anyCase
      ⟨'<' :: '/' :: '?' :: '(' :: (w ++ (ws.flatMap ('|' :: ·) ++ ')' ::
        ['\\', 'b', '[', '^', '<', '>', ']', '*', '>'])), 0, 0, []⟩ [] []
      (Source.alternatives [] (leftoverPieces w ws), s) := by
  apply Exists.intro
  refine .letter rfl rfl (.letter rfl rfl (.optional rfl (by simp) ?_))
  refine .wordGroup rfl hne hw ?_
  refine .primitive (w := ['b']) (by decide) rfl ?_
  refine .primitive (w := ['^', '<', '>', ']']) (p := ⟨.one notAngle, 2, false⟩) (by decide)
    (by cbv) ?_
  exact .star rfl (by simp) (.letter rfl rfl .stop)

theorem read_wholeElement {tag : String} (h : IsName tag.toList) :
    Source.read (wholeElement tag).toList .spanning = .ok (opened (wholeParts tag.toList)) := by
  obtain ⟨s, hs⟩ := ends_whole h.plain rfl
  have hsource : (wholeElement tag).toList = '<' :: (tag.toList ++ ('\\' :: 'b' :: '[' :: '^' ::
      '>' :: ']' :: '*' :: '>' :: '.' :: '*' :: '?' :: '<' :: '/' ::
      (tag.toList ++ ['\\', 's', '*', '>']))) := by
    simp [wholeElement]
  have hexpr : .sequence ((wholePieces tag.toList).reverse.map Source.Piece.expr) =
      opened (wholeParts tag.toList) := by
    simp [wholePieces, Source.letters, opened, wholeParts, openingParts, closingParts,
      Function.comp_def, Source.letter]
  have hlow : Source.Low 2 (wholePieces tag.toList) := by
    simp only [wholePieces, Source.Low, List.forall_mem_cons]
    refine ⟨Nat.zero_le _, by decide, Source.low_letters _ ?_⟩
    simp only [Source.Low, List.forall_mem_cons]
    refine ⟨Nat.zero_le _, Nat.zero_le _, by decide, Nat.zero_le _, by decide, by decide, ?_⟩
    exact Source.low_letters _ (List.forall_mem_singleton.2 (Nat.zero_le _))
  rw [hsource, ← hexpr]
  refine Source.read_of_ends hs hlow (by decide) ?_
  rw [hexpr]
  calc Source.nodeSize * (opened (wholeParts tag.toList)).weight
      ≤ Source.nodeSize * (15 * 112) := Nat.mul_le_mul_left _ (weight_whole h)
    _ ≤ sizeLimit := by decide

theorem toList_alternatives (tag : String) (tags : List String) :
    (Tags.alternatives (tag :: tags)).toList =
      tag.toList ++ (tags.map String.toList).flatMap ('|' :: ·) := by
  rw [Tags.alternatives, String.toList_intercalate]
  induction tags generalizing tag with
  | nil => simp
  | cons t tags ih =>
    rw [List.map_cons, List.map_cons, List.intercalate_cons_cons, ← List.map_cons, ih]
    simp

theorem read_leftover : Source.read leftover.toList .anyCase = .ok (opened leftoverParts) := by
  obtain ⟨tag, tags, htags⟩ : ∃ tag tags, Tags.dangerous = tag :: tags := ⟨_, _, rfl⟩
  have hname : ∀ w ∈ tag.toList :: tags.map String.toList, IsName w := by
    rw [← List.map_cons, ← htags]
    exact List.forall_mem_map.2 fun tag => isName_of_mem
  obtain ⟨s, hs⟩ := ends_leftover (hname _ List.mem_cons_self).ne_nil fun w hw => (hname w hw).plain
  have hsource : leftover.toList = '<' :: '/' :: '?' :: '(' :: (tag.toList ++
      ((tags.map String.toList).flatMap ('|' :: ·) ++ ')' ::
        ['\\', 'b', '[', '^', '<', '>', ']', '*', '>'])) := by
    simp [leftover, htags, toList_alternatives]
  have hexpr : .sequence ((leftoverPieces tag.toList (tags.map String.toList)).reverse.map
      Source.Piece.expr) = opened leftoverParts := by
    have hchoice : .alternatives ((Tags.dangerous.map String.toList).map .word) =
        Expr.choice ((Tags.dangerous.map String.toList).map .word) :=
      Expr.alternatives_words (c := 's') (d := 'i') (by decide) (by decide) (by decide)
    simp only [leftoverPieces, List.reverse_cons, List.reverse_nil, List.nil_append,
      List.cons_append, List.map_cons, Source.expr_wordGroup]
    rw [← List.map_cons, ← List.map_cons, ← htags, hchoice]
    rfl
  have hlow : Source.Low 3 (leftoverPieces tag.toList (tags.map String.toList)) := by
    simp only [leftoverPieces, Source.Low, List.forall_mem_cons]
    exact ⟨Nat.zero_le _, by decide, by decide, Source.height_wordGroup .., by decide,
      Nat.zero_le _, nofun⟩
  rw [hsource, ← hexpr]
  refine Source.read_of_ends hs hlow (by decide) ?_
  rw [hexpr]
  calc Source.nodeSize * (opened leftoverParts).weight
      ≤ Source.nodeSize * ((751 * 17 + 2) * 6) := Nat.mul_le_mul_left _ weight_leftover
    _ ≤ sizeLimit := by decide

end reading

/-- An opening or closing tag of a dangerous element. -/
def IsDangerousTag (u : Text) : Prop :=
  ∃ slash name body : Text, (slash = [] ∨ slash = ['/']) ∧
    (∃ tag ∈ Tags.dangerous, name.map Text.fold = tag.toList) ∧
    (∀ x ∈ body, x ≠ '<' ∧ x ≠ '>') ∧ (∀ x ∈ body.head?, Text.isWord x = false) ∧
    u = '<' :: (slash ++ (name ++ (body ++ ['>'])))

theorem IsDangerousTag.bracketed {u : Text} (h : IsDangerousTag u) :
    ∃ w, '>' ∉ w ∧ u = '<' :: (w ++ ['>']) := by
  obtain ⟨slash, name, body, hs, ⟨tag, ht, hn⟩, hb, -, rfl⟩ := h
  refine ⟨slash ++ (name ++ body), ?_, by simp⟩
  simp only [List.mem_append, not_or]
  refine ⟨?_, ?_, fun hm => (hb _ hm).2 rfl⟩
  · rcases hs with rfl | rfl <;> decide
  · intro hm
    have hmark : Text.fold '>' ∈ tag.toList := hn ▸ List.mem_map_of_mem hm
    exact absurd ((isName_of_mem ht).word _ hmark) (by decide)

section matching
open Expr

theorem has_notAngle {x : Char} : notAngle.has x ↔ x ≠ '<' ∧ x ≠ '>' := by
  have ho : notAngle.Ordered := by decide
  have hr : notAngle.ranges = [(0, 59), (61, 61), (63, 1114111)] := rfl
  have hx : x.toNat < 0xD800 ∨ 0xDFFF < x.toNat ∧ x.toNat < 0x110000 := x.valid
  rw [CharSet.has_iff ho, hr]
  simp only [CharSet.Within, List.mem_cons, List.not_mem_nil, or_false, exists_eq_or_imp,
    exists_eq_left, Ne, ← Char.toNat_inj]
  change _ ↔ ¬ x.toNat = 60 ∧ ¬ x.toNat = 62
  omega

theorem mem_spellings_mark {v : Text} {c : Char} (hc : c ∈ ['<', '>', '/', '=', '"', '\'']) :
    v ∈ spellings [c] ↔ v = [c] := by
  have hall : (['<', '>', '/', '=', '"', '\''].all fun c =>
      decide (IsFolded c) && Text.asciiFoldPairs.all (·.2 != c)) := by decide +kernel
  have hmark := List.all_eq_true.1 hall c hc
  simp only [Bool.and_eq_true, decide_eq_true_eq, List.all_eq_true, bne_iff_ne] at hmark
  obtain ⟨⟨hlt, hfold⟩, hne⟩ := hmark
  rw [mem_spellings, List.map_eq_singleton_iff]
  constructor
  · rintro ⟨x, rfl, hx⟩
    rcases (Text.fold_eq_iff hlt hfold).1 hx with rfl | hp
    · rfl
    · exact absurd rfl (hne _ hp)
  · rintro rfl
    exact ⟨c, rfl, hfold⟩

theorem has_mark {x c : Char} (hc : c ∈ ['<', '>', '/', '=', '"', '\'']) :
    (CharSet.single c).anyCase.has x ↔ x = c := by
  have hall : ['<', '>', '/', '=', '"', '\''].all fun c => decide (IsFolded c) := by decide
  have hf : IsFolded c := of_decide_eq_true (List.all_eq_true.1 hall c hc)
  rw [CharSet.has_anyCase_single hf.1 hf.2, ← List.singleton_inj (a := x),
    ← mem_spellings_mark hc, mem_spellings]
  exact List.singleton_inj.symm

theorem isWord_of_fold {x : Char} (hc : IsFolded (Text.fold x)) (hw : Text.isWord (Text.fold x)) :
    Text.isWord x := by
  have hpairs : ∀ p ∈ Text.asciiFoldPairs, Text.isWord p.1 := by decide +kernel
  rcases (Text.fold_eq_iff hc.1 hc.2).1 rfl with h | h
  · rwa [← h] at hw
  · exact hpairs _ h

/-- What the patterns read as a name: that of a dangerous element in any case. -/
def names : Language Char := {v : Text | ∃ w ∈ Tags.dangerous.map String.toList, v ∈ spellings w}

/-- A dangerous tag up to its name. -/
def openings : Language Char := spellings ['<'] * ((1 + spellings ['/']) * names)

/-- What follows the name in a tag. -/
def endings : Language Char := runs notAngle * spellings ['>']

theorem mem_openings {v : Text} : v ∈ openings ↔ ∃ slash name : Text,
    (slash = [] ∨ slash = ['/']) ∧ (∃ tag ∈ Tags.dangerous, name.map Text.fold = tag.toList) ∧
    v = '<' :: (slash ++ name) := by
  simp only [openings, Language.mem_mul, Language.mem_add, Language.mem_one]
  constructor
  · rintro ⟨_, h, _, ⟨slash, hs, name, ⟨_, hw, hn⟩, rfl⟩, rfl⟩
    obtain ⟨tag, ht, rfl⟩ := List.mem_map.1 hw
    rw [mem_spellings_mark (by simp)] at h hs
    exact ⟨slash, name, hs, ⟨tag, ht, hn⟩, by rw [h]; rfl⟩
  · rintro ⟨slash, name, hs, ⟨tag, ht, hn⟩, rfl⟩
    refine ⟨['<'], (mem_spellings_mark (by simp)).2 rfl, _, ⟨slash, ?_, name, ?_, rfl⟩, rfl⟩
    · rwa [mem_spellings_mark (by simp)]
    · exact ⟨_, List.mem_map_of_mem ht, hn⟩

theorem mem_endings {v : Text} : v ∈ endings ↔ ∃ body : Text,
    (∀ x ∈ body, x ≠ '<' ∧ x ≠ '>') ∧ v = body ++ ['>'] := by
  simp only [endings, Language.mem_mul, mem_runs, has_notAngle]
  constructor
  · rintro ⟨body, hb, _, h, rfl⟩
    rw [mem_spellings_mark (by simp)] at h
    exact ⟨body, hb, by rw [h]⟩
  · rintro ⟨body, hb, rfl⟩
    exact ⟨body, hb, ['>'], (mem_spellings_mark (by simp)).2 rfl, rfl⟩

/-- A name ends with a word character, so the edge after it says that none follows. -/
theorem wordEdge_iff {c : Cursor} {v r : Text} (hv : v ∈ openings) (hc : c.rest = v ++ r) :
    (Edge.wordEdge .wide).holds (c.advance v.length).before (c.advance v.length).peek ↔
      ∀ x ∈ r.head?, Text.isWord x = false := by
  have hbefore : ∃ y, (c.advance v.length).before = some y ∧ Text.isWord y := by
    obtain ⟨slash, name, -, ⟨tag, ht, hn⟩, rfl⟩ := mem_openings.1 hv
    have hname := isName_of_mem ht
    rcases List.eq_nil_or_concat name with rfl | ⟨front, y, rfl⟩
    · exact absurd hn.symm hname.ne_nil
    · have hy : Text.fold y ∈ tag.toList := by
        rw [← hn]
        exact List.mem_map_of_mem (by simp)
      refine ⟨y, ?_, isWord_of_fold (hname.folded _ hy) (hname.word _ hy)⟩
      rw [Cursor.before_advance hc nofun, List.concat_eq_append, ← List.append_assoc,
        ← List.cons_append, List.getLast?_concat]
  obtain ⟨y, hy, hw⟩ := hbefore
  rw [hy, Cursor.peek, Cursor.rest_advance_append hc]
  cases r <;> simp [Edge.holds, Scope.isWord, hw]

theorem isDangerousTag_iff {u : Text} : IsDangerousTag u ↔
    ∃ v ∈ openings, ∃ w ∈ endings, (∀ x ∈ w.head?, Text.isWord x = false) ∧ u = v ++ w := by
  have hhead (body : Text) : (∀ x ∈ (body ++ ['>']).head?, Text.isWord x = false) ↔
      ∀ x ∈ body.head?, Text.isWord x = false := by
    cases body with
    | nil => simp; decide
    | cons y body => rfl
  constructor
  · rintro ⟨slash, name, body, hs, hn, hb, hh, rfl⟩
    exact ⟨_, mem_openings.2 ⟨slash, name, hs, hn, rfl⟩, _, mem_endings.2 ⟨body, hb, rfl⟩,
      (hhead body).2 hh, by simp⟩
  · rintro ⟨v, hv, w, hw, hh, rfl⟩
    obtain ⟨slash, name, hs, hn, rfl⟩ := mem_openings.1 hv
    obtain ⟨body, hb, rfl⟩ := mem_endings.1 hw
    exact ⟨slash, name, body, hs, hn, hb, (hhead body).1 hh, by simp⟩

private theorem spells_openings :
    (Expr.sequence [.letter '<', .repeated (.letter '/') 0 (some 1) true,
      .group 1 (.choice ((Tags.dangerous.map String.toList).map .word))]).Spells openings := by
  have hname : ∀ w ∈ Tags.dangerous.map String.toList, ∀ c ∈ w, IsFolded c :=
    List.forall_mem_map.2 fun tag h => (isName_of_mem h).folded
  exact .cons (spells_letter (by decide))
    (.cons (.optional true (spells_letter (by decide))) (.group 1 (spells_words nofun hname)))

private theorem spells_endings :
    (Expr.sequence [.repeated (.one notAngle) 0 none true, .letter '>']).Spells endings :=
  .cons (spells_runs notAngle true) (spells_letter (by decide))

private theorem head?_append_of_ending {w r : Text} (hw : w ∈ endings) :
    (w ++ r).head? = w.head? := by
  obtain ⟨body, -, rfl⟩ := mem_endings.1 hw
  exact List.head?_append_of_ne_nil _ (by simp)

/-- The pattern for what is left matches where a dangerous tag stands, and nowhere else. -/
theorem matchesAt_leftover {c : Cursor} :
    (opened leftoverParts).MatchesAt c ↔ ∃ u, IsDangerousTag u ∧ u <+: c.rest := by
  constructor
  · rintro ⟨u, h⟩
    obtain ⟨m, hf, h⟩ := (reads_sequence_append [_, _, _] _).1 h
    obtain ⟨_, ⟨hedge, rfl⟩, hb⟩ := (reads_sequence_cons _).1 h
    obtain ⟨v, hv, hr, hp⟩ := spells_openings.sound hf
    obtain ⟨w, hw, hq, -⟩ := spells_endings.sound hb
    rw [hp, wordEdge_iff hv hr, hq, head?_append_of_ending hw] at hedge
    refine ⟨v ++ w, isDangerousTag_iff.2 ⟨v, hv, w, hw, hedge, rfl⟩, u.place.rest, ?_⟩
    rw [hr, hq, List.append_assoc]
  · rintro ⟨_, hu, r, hr⟩
    obtain ⟨v, hv, w, hw, hhead, rfl⟩ := isDangerousTag_iff.1 hu
    have hc : c.rest = v ++ (w ++ r) := by rw [← hr, List.append_assoc]
    obtain ⟨ns, hf⟩ := spells_openings.complete (t := ⟨c, []⟩) hv hc
    obtain ⟨ns', hb⟩ := spells_endings.complete (t := ⟨c.advance v.length, ns⟩) hw
      (Cursor.rest_advance_append hc)
    rw [← head?_append_of_ending (r := r) hw, ← wordEdge_iff hv hc] at hhead
    exact ⟨_, (reads_sequence_append [_, _, _] _).2 ⟨_, hf, (reads_sequence_cons _).2
      ⟨_, ⟨hhead, rfl⟩, hb⟩⟩⟩

theorem reads_opened {as : List Expr} {t u : Trail} (h : (opened as).Reads t u) :
    ∃ v, t.place.rest = '<' :: v := by
  obtain ⟨m, hf, -⟩ := (reads_sequence_cons _).1 h
  obtain ⟨v, hv, hr, -⟩ := (spells_letter (by decide)).sound hf
  rw [mem_spellings_mark (by simp)] at hv
  exact ⟨m.place.rest, by rw [hr, hv]; rfl⟩

theorem has_blank {x : Char} (h : (Source.blankSet .wide).has x) :
    (x ≠ '<' ∧ x ≠ '>') ∧ Text.isWord x = false := by
  have hall : ∀ r ∈ (Source.blankSet .wide).ranges, ∀ k ≤ r.2 - r.1,
      (Char.ofNat (r.1 + k) ≠ '<' ∧ Char.ofNat (r.1 + k) ≠ '>') ∧
        Text.isWord (Char.ofNat (r.1 + k)) = false := by decide +kernel
  exact CharSet.forall_of_ranges
    (P := fun x => (x ≠ '<' ∧ x ≠ '>') ∧ Text.isWord x = false) (by decide) hall h

/-- What the pattern for a whole element reads ends with a dangerous tag. -/
theorem reads_whole {tag : String} {t u : Trail} (htag : tag ∈ Tags.dangerous)
    (h : (opened (wholeParts tag.toList)).Reads t u) :
    ∃ v w, IsDangerousTag w ∧ t.place.rest = v ++ (w ++ u.place.rest) := by
  have hclosing : (Expr.sequence (closingParts tag.toList)).Spells
      (spellings ['<'] * (spellings ['/'] * (spellings tag.toList *
        (runs (Source.blankSet .wide) * spellings ['>'])))) := by
    exact .cons (spells_letter (by decide)) (.cons (spells_letter (by decide))
      (.append (spells_word (isName_of_mem htag).folded)
        (.cons (spells_runs _ true) (spells_letter (by decide)))))
  obtain ⟨m, hf, h⟩ := (reads_sequence_append (.letter '<' :: openingParts tag.toList) _).1 h
  obtain ⟨w, hw, hr, -⟩ := hclosing.sound h
  refine ⟨t.place.upTo m.place, w, ?_, by rw [hf.reaches.upTo.1, hr]⟩
  simp only [Language.mem_mul] at hw
  obtain ⟨_, h1, _, ⟨_, h2, _, ⟨name, hn, _, ⟨body, hb, _, h3, rfl⟩, rfl⟩, rfl⟩, rfl⟩ := hw
  rw [mem_spellings_mark (by simp)] at h1 h2 h3
  refine ⟨['/'], name, body, .inr rfl, ⟨tag, htag, hn⟩, fun x hx => (has_blank (hb x hx)).1,
    fun x hx => (has_blank (hb x (List.mem_of_mem_head? hx))).2, ?_⟩
  rw [h1, h2, h3]
  rfl

end matching

/-- A text with a dangerous tag somewhere in it. -/
def HasDangerousTag (t : Text) : Prop := ∃ u, IsDangerousTag u ∧ u <:+: t

theorem hasDangerousTag_iff {c : Cursor} : HasDangerousTag c.rest ↔
    ∃ s, c.Reaches s ∧ (opened leftoverParts).MatchesAt s := by
  simp only [matchesAt_leftover]
  constructor
  · rintro ⟨u, hu, p, q, h⟩
    rw [List.append_assoc] at h
    refine ⟨c.advance p.length, c.reaches_advance _, u, hu, q, ?_⟩
    rw [Cursor.rest_advance_append h.symm]
  · rintro ⟨s, hs, u, hu, h⟩
    exact ⟨u, hu, h.isInfix.trans hs.suffix.isInfix⟩

end MailMarkup.Forbidden
