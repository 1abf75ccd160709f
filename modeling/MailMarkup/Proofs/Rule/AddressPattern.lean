import MailMarkup.Proofs.Pattern.Preference
import MailMarkup.Proofs.Rule.TagPatterns
import MailMarkup.Rule.Script

/-!
# The pattern for script addresses

What the pattern is read as, where it matches and where its matches end: at a place where a word
starts, the name of an attribute, an equals sign and a script address, in quotes that are closed or
without quotes. An address without quotes goes on as long as it can, so no word goes on where a
match ends.
-/
namespace MailMarkup.Script
open Pattern

/-- The attributes whose values are addresses. -/
def addressed : List Text :=
  [['h', 'r', 'e', 'f'], ['s', 'r', 'c'], ['a', 'c', 't', 'i', 'o', 'n'],
    ['b', 'a', 'c', 'k', 'g', 'r', 'o', 'u', 'n', 'd']]

/-- The scheme of script addresses, with the colon. -/
def scheme : Text := ['j', 'a', 'v', 'a', 's', 'c', 'r', 'i', 'p', 't', ':']

/-- Any blanks. -/
def blanks : Expr := .repeated (.one (Source.blankSet .wide)) 0 none true

/-- All characters but a quote. -/
def notQuote (quote : Char) : CharSet := CharSet.compl (.single quote)

/-- All characters but blanks and the closing angle bracket. -/
def unspaced : CharSet :=
  CharSet.compl ⟨[(9, 13), (32, 32), (62, 62), (133, 133), (160, 160), (5760, 5760), (8192, 8202),
    (8232, 8233), (8239, 8239), (8287, 8287), (12288, 12288)]⟩

def nameGroup : Expr := .group 1 (.choice (addressed.map .word))

/-- What stands before the value of an attribute, after the edge of its name. -/
def leadParts : List Expr := [nameGroup, blanks, .letter '=', blanks]

/-- A script address in quotes. -/
def quotedParts (quote : Char) : List Expr :=
  .letter quote :: blanks ::
    (scheme.map .letter ++ [.repeated (.one (notQuote quote)) 0 none true, .letter quote])

/-- A script address without quotes. -/
def bareParts : List Expr := scheme.map .letter ++ [.repeated (.one unspaced) 0 none true]

def values : List (List Expr) := [quotedParts '"', quotedParts '\'', bareParts]

/-- What the pattern for script addresses is read as. -/
def addressExpr : Expr :=
  .sequence (.edge (.wordEdge .wide) :: (leadParts ++ [.choice (values.map .sequence)]))

section reading

private def quotedPieces (quote : Char) : List Source.Piece :=
  Source.letter quote :: ⟨.repeated (.one (notQuote quote)) 0 none true, 2, false⟩ ::
    Source.letters scheme [⟨blanks, 1, false⟩, Source.letter quote]

private def barePieces : List Source.Piece :=
  ⟨.repeated (.one unspaced) 0 none true, 3, false⟩ :: Source.letters scheme []

private def valuePiece : Source.Piece :=
  let body := Source.alternatives
    [Source.sequence (quotedPieces '\''), Source.sequence (quotedPieces '"')] barePieces
  ⟨body.expr, body.height + 1, false⟩

private def addressPieces : List Source.Piece :=
  [valuePiece, ⟨blanks, 1, false⟩, Source.letter '=', ⟨blanks, 1, false⟩,
    Source.wordGroup 1 ['h', 'r', 'e', 'f'] addressed.tail, ⟨.edge (.wordEdge .wide), 0, false⟩]

private def sourceOf (quote : Char) (t : Text) : Text :=
  quote :: '\\' :: 's' :: '*' :: (scheme ++ '[' :: '^' :: quote :: ']' :: '*' :: quote :: t)

private theorem plain_scheme : ∀ c ∈ scheme, Source.isPlain c := List.all_eq_true.1 (by decide)

private theorem plain_addressed : ∀ v ∈ addressed, ∀ c ∈ v, Source.isPlain c := by
  have hall : addressed.all fun v => v.all Source.isPlain := by decide
  exact fun v hv => List.all_eq_true.1 (List.all_eq_true.1 hall v hv)

private theorem ends_values {place groups : Nat} {names : List Text} {t₁ t₂ t₃ : Text}
    (h₁ : t₁ = sourceOf '"' ('|' :: t₂)) (h₂ : t₂ = sourceOf '\'' ('|' :: t₃))
    (h₃ : t₃ = scheme ++ '[' :: '^' :: '\\' :: 's' :: '>' :: ']' :: '*' :: [')']) :
    ∃ place', Source.Ends 1 .anyCase ⟨t₁, place, groups, names⟩ [] []
      (Source.alternatives [Source.sequence (quotedPieces '\''), Source.sequence (quotedPieces '"')]
        barePieces, ⟨[')'], place', groups, names⟩) := by
  apply Exists.intro
  subst h₁
  refine .letter rfl rfl (.primitive (w := ['s']) (by decide) rfl (.star rfl (by simp [scheme]) ?_))
  refine .word rfl plain_scheme (.primitive (w := ['^', '"', ']'])
    (p := ⟨.one (notQuote '"'), 1, false⟩) (by decide) (by cbv) ?_)
  refine .star rfl (by simp) (.letter rfl rfl (.bar ?_))
  subst h₂
  refine .letter rfl rfl (.primitive (w := ['s']) (by decide) rfl (.star rfl (by simp [scheme]) ?_))
  refine .word rfl plain_scheme (.primitive (w := ['^', '\'', ']'])
    (p := ⟨.one (notQuote '\''), 1, false⟩) (by decide) (by cbv) ?_)
  refine .star rfl (by simp) (.letter rfl rfl (.bar ?_))
  subst h₃
  refine .word rfl plain_scheme (.primitive (w := ['^', '\\', 's', '>', ']'])
    (p := ⟨.one unspaced, 2, false⟩) (by decide) (by cbv) ?_)
  exact .star rfl (by simp) .close

private theorem ends_address {t : Text}
    (h : ∀ place groups names, ∃ place', Source.Ends 1 .anyCase ⟨t, place, groups, names⟩ [] []
      (Source.alternatives [Source.sequence (quotedPieces '\''), Source.sequence (quotedPieces '"')]
        barePieces, ⟨[')'], place', groups, names⟩)) (ht : 0 < t.length) :
    ∃ s, Source.Ends 0 .anyCase
      ⟨'\\' :: 'b' :: '(' :: (['h', 'r', 'e', 'f'] ++ (addressed.tail.flatMap ('|' :: ·) ++ ')' ::
        '\\' :: 's' :: '*' :: '=' :: '\\' :: 's' :: '*' :: '(' :: '?' :: ':' :: t)), 0, 0, []⟩ [] []
      (Source.alternatives [] addressPieces, s) := by
  choose place' h using h
  apply Exists.intro
  refine .primitive (w := ['b']) (by decide) rfl (.wordGroup rfl (by decide) plain_addressed ?_)
  refine .primitive (w := ['s']) (by decide) rfl (.star rfl (by simp) (.letter rfl rfl ?_))
  refine .primitive (w := ['s']) (by decide) rfl (.star rfl (by simp) ?_)
  exact .plainGroup (h _ _ _) ht .stop

private theorem toList_address : address.toList = '\\' :: 'b' :: '(' :: (['h', 'r', 'e', 'f'] ++
    (addressed.tail.flatMap ('|' :: ·) ++ ')' :: '\\' :: 's' :: '*' :: '=' :: '\\' :: 's' :: '*' ::
      '(' :: '?' :: ':' :: sourceOf '"' ('|' :: sourceOf '\'' ('|' :: (scheme ++ '[' :: '^' ::
        '\\' :: 's' :: '>' :: ']' :: '*' :: [')']))))) := by
  delta address
  rw [String.toList_append, String.toList_ofList, String.toList_ofList]
  rfl

private theorem forall_scheme {P : Expr → Prop} (h : ∀ c, Expr.IsFolded c → P (.letter c)) :
    ∀ a ∈ scheme.map Expr.letter, P a := by
  have hall : scheme.all fun c => decide (Expr.IsFolded c) := by decide
  exact List.forall_mem_map.2 fun c hc => h c (of_decide_eq_true (List.all_eq_true.1 hall c hc))

private theorem forall_quotedParts {P : Expr → Prop} {quote : Char}
    (hl : ∀ c, Expr.IsFolded c → P (.letter c)) (hq : Expr.IsFolded quote)
    (hr : ∀ set ∈ [Source.blankSet .wide, notQuote quote], P (.repeated (.one set) 0 none true)) :
    ∀ a ∈ quotedParts quote, P a := by
  simp only [quotedParts, List.forall_mem_cons, List.forall_mem_append]
  exact ⟨hl quote hq, hr _ (by simp), forall_scheme hl, hr _ (by simp), hl quote hq, nofun⟩

private theorem forall_bareParts {P : Expr → Prop} (hl : ∀ c, Expr.IsFolded c → P (.letter c))
    (hr : P (.repeated (.one unspaced) 0 none true)) : ∀ a ∈ bareParts, P a :=
  List.forall_mem_append.2 ⟨forall_scheme hl, List.forall_mem_singleton.2 hr⟩

private theorem weight_addressExpr : addressExpr.weight ≤ 721 * 6 := by
  have hletter (c : Char) (hc : Expr.IsFolded c) : (Expr.letter c).weight ≤ 15 :=
    Expr.weight_letter hc.1
  have hvalues : ∀ a ∈ values.map Expr.sequence, a.weight ≤ 15 * 15 := by
    refine List.forall_mem_map.2 ?_
    simp only [values, List.forall_mem_cons]
    exact ⟨Expr.weight_sequence_le (forall_quotedParts hletter (by decide) (by decide)),
      Expr.weight_sequence_le (forall_quotedParts hletter (by decide) (by decide)),
      Nat.le_trans (Expr.weight_sequence_le (forall_bareParts hletter (by decide))) (by decide),
      nofun⟩
  have hnames : ∀ a ∈ addressed.map Expr.word, a.weight ≤ 15 * 10 := by
    have hall : addressed.all fun w => w.length ≤ 10 && w.all (·.toNat < 128) := by decide
    refine List.forall_mem_map.2 fun w hw => ?_
    have hw := List.all_eq_true.1 hall w hw
    simp only [Bool.and_eq_true, decide_eq_true_eq, List.all_eq_true] at hw
    have hle := Expr.weight_word_le hw.2
    omega
  have hname := Expr.weight_choice_le hnames
  have hvalue := Expr.weight_choice_le hvalues
  refine Expr.weight_sequence_le ?_
  simp only [leadParts, List.cons_append, List.nil_append, List.forall_mem_cons]
  refine ⟨by decide, ?_, by decide, ?_, by decide, ?_, nofun⟩
  · have hw : nameGroup.weight = (Expr.choice (addressed.map Expr.word)).weight + 2 := rfl
    rw [hw]
    exact Nat.le_trans (Nat.add_le_add_right hname 2) (by decide)
  · exact Nat.le_trans (hletter _ (by decide)) (by decide)
  · exact Nat.le_trans hvalue (by decide)

theorem read_address : Source.read address.toList .anyCase = .ok addressExpr := by
  obtain ⟨s, hs⟩ := ends_address (fun _ _ _ => ends_values rfl rfl rfl) (Nat.succ_pos _)
  have hexpr : .sequence (addressPieces.reverse.map Source.Piece.expr) = addressExpr := by
    have hnames : .alternatives (addressed.map .word) = Expr.choice (addressed.map .word) :=
      Expr.alternatives_words (c := 'h') (d := 's') (by decide) (by decide) (by decide)
    have hvalues : .alternatives (values.map .sequence) = Expr.choice (values.map .sequence) :=
      Expr.alternatives_eq_choice (if_neg fun h => absurd
        (Expr.letter_inj (by decide) (by decide) h) (by decide))
    have hvalue : valuePiece.expr = .alternatives (values.map .sequence) := by
      simp [valuePiece, Source.alternatives, Source.sequence, quotedPieces, barePieces, values,
        quotedParts, bareParts, Source.letters, Source.letter, Function.comp_def]
    have hgroup : (['h', 'r', 'e', 'f'] :: addressed.tail) = addressed := rfl
    simp only [addressPieces, List.reverse_cons, List.reverse_nil, List.nil_append,
      List.cons_append, List.map_cons, Source.expr_wordGroup, hvalue, hvalues]
    rw [← List.map_cons, hgroup, hnames]
    rfl
  have hlow : Source.Low 6 addressPieces := by
    simp only [addressPieces, Source.Low, List.forall_mem_cons]
    exact ⟨by decide, by decide, Nat.zero_le _, by decide,
      Nat.le_trans (Source.height_wordGroup ..) (by decide), Nat.zero_le _, List.forall_mem_nil _⟩
  rw [toList_address, ← hexpr]
  refine Source.read_of_ends hs hlow (by decide) ?_
  rw [hexpr]
  calc Source.nodeSize * addressExpr.weight
      ≤ Source.nodeSize * (721 * 6) := Nat.mul_le_mul_left _ weight_addressExpr
    _ ≤ sizeLimit := by decide

theorem ordered_addressExpr : addressExpr.Ordered := by
  have hletter (c : Char) (_ : Expr.IsFolded c) : (Expr.letter c).Ordered := Expr.ordered_letter c
  have hdouble : ∀ set ∈ [Source.blankSet .wide, notQuote '"'], set.Ordered := by decide
  have hsingle : ∀ set ∈ [Source.blankSet .wide, notQuote '\''], set.Ordered := by decide
  have hunspaced : unspaced.Ordered := by decide
  have hblanks : blanks.Ordered := hdouble _ List.mem_cons_self
  have hvalues : ∀ a ∈ values.map Expr.sequence, a.Ordered := by
    refine List.forall_mem_map.2 ?_
    simp only [values, List.forall_mem_cons]
    exact ⟨Expr.ordered_sequence (forall_quotedParts hletter (by decide) hdouble),
      Expr.ordered_sequence (forall_quotedParts hletter (by decide) hsingle),
      Expr.ordered_sequence (forall_bareParts hletter hunspaced), nofun⟩
  refine Expr.ordered_sequence ?_
  simp only [leadParts, List.cons_append, List.nil_append, List.forall_mem_cons]
  exact ⟨trivial, Expr.ordered_choice (List.forall_mem_map.2 fun w _ => Expr.ordered_word w),
    hblanks, Expr.ordered_letter _, hblanks, Expr.ordered_choice hvalues, nofun⟩

end reading
section matching
open Expr Forbidden
variable {c : Cursor} {m : Match} {name h r : Text} {q : Option Char}

/-- The names in any case. -/
def nameForms : Language Char := {v : Text | ∃ w ∈ addressed, v ∈ spellings w}

/-- What stands before the value of an attribute. -/
def leads : Language Char :=
  nameForms * (runs (Source.blankSet .wide) * (spellings ['='] * runs (Source.blankSet .wide)))

/-- What stands before the rest of a script address, after a quote or without one. -/
def openings : Option Char → Language Char
  | none => spellings scheme
  | some quote => spellings [quote] * (runs (Source.blankSet .wide) * spellings scheme)

/-- The start of an attribute with a script address, up to the colon. -/
def heads (q : Option Char) : Language Char := leads * openings q

/-- What can stand before a script address. -/
def quotes : List (Option Char) := [none, some '"', some '\'']

private theorem folded_addressed : ∀ w ∈ addressed, ∀ c ∈ w, IsFolded c := by
  have hall : addressed.all fun w => w.all fun c => decide (IsFolded c) := by decide
  intro w hw c hc
  have hc := List.all_eq_true.1 (List.all_eq_true.1 hall w hw) c hc
  exact of_decide_eq_true hc

private theorem folded_scheme : ∀ c ∈ scheme, IsFolded c := by
  have hall : scheme.all fun c => decide (IsFolded c) := by decide
  exact fun c hc => of_decide_eq_true (List.all_eq_true.1 hall c hc)

theorem spells_names : (Expr.choice (addressed.map word)).Spells nameForms :=
  spells_words (by decide) folded_addressed

theorem spells_lead : (Expr.sequence leadParts).Spells leads :=
  .cons (.group 1 spells_names) (.cons (spells_runs _ true)
    (.cons (spells_letter (by decide)) (spells_runs _ true)))

theorem spells_quoted {quote : Char} (hq : IsFolded quote) :
    (Expr.sequence (quotedParts quote)).Spells (spellings [quote] * (runs (Source.blankSet .wide) *
      (spellings scheme * (runs (notQuote quote) * spellings [quote])))) :=
  .cons (spells_letter hq) (.cons (spells_runs _ true)
    (.append (spells_word folded_scheme) (.cons (spells_runs _ true) (spells_letter hq))))

theorem spells_bare : (Expr.sequence bareParts).Spells (spellings scheme * runs unspaced) :=
  .append (spells_word folded_scheme) (spells_runs _ true)

theorem mem_openings {v : Text} (hq : q ∈ quotes) : v ∈ openings q ↔ ∃ s w : Text,
    (∀ x ∈ s, (Source.blankSet .wide).has x) ∧ (q = none → s = []) ∧ w.map Text.fold = scheme ∧
    v = q.toList ++ (s ++ w) := by
  cases q with
  | none =>
    constructor
    · intro hv
      exact ⟨[], v, nofun, fun _ => rfl, hv, rfl⟩
    · rintro ⟨s, w, -, hs, hw, rfl⟩
      rw [hs rfl]
      exact hw
  | some x =>
    have hmark (v : Text) : v ∈ spellings [x] ↔ v = [x] :=
      mem_spellings_mark (by simp [quotes] at hq; rcases hq with rfl | rfl <;> simp)
    simp only [openings, Language.mem_mul]
    constructor
    · rintro ⟨_, h, _, ⟨s, hs, w, hw, rfl⟩, rfl⟩
      rw [hmark] at h
      exact ⟨s, w, hs, nofun, hw, by rw [h]; rfl⟩
    · rintro ⟨s, w, hs, -, hw, rfl⟩
      exact ⟨[x], (hmark _).2 rfl, s ++ w, ⟨s, hs, w, hw, rfl⟩, rfl⟩

private theorem has_notQuote {quote x : Char} (hq : quote = '"' ∨ quote = '\'') :
    (notQuote quote).has x ↔ x ≠ quote := by
  have hx : x.toNat < 0xD800 ∨ 0xDFFF < x.toNat ∧ x.toNat < 0x110000 := x.valid
  rcases hq with rfl | rfl
  · have hr : (notQuote '"').ranges = [(0, 33), (35, 1114111)] := rfl
    rw [CharSet.has_iff (by decide), hr]
    simp only [CharSet.Within, List.mem_cons, List.not_mem_nil, or_false, exists_eq_or_imp,
      exists_eq_left, Ne, ← Char.toNat_inj]
    change _ ↔ ¬ x.toNat = 34
    omega
  · have hr : (notQuote '\'').ranges = [(0, 38), (40, 1114111)] := rfl
    rw [CharSet.has_iff (by decide), hr]
    simp only [CharSet.Within, List.mem_cons, List.not_mem_nil, or_false, exists_eq_or_imp,
      exists_eq_left, Ne, ← Char.toNat_inj]
    change _ ↔ ¬ x.toNat = 39
    omega

/-- No word goes on at a place. -/
def AtEdge (c : Cursor) : Prop := ∀ x ∈ c.before, Text.isWord x = false

/-- At a place an attribute with a script address starts, and what stands after the colon. -/
structure Opens (q : Option Char) (c : Cursor) (h r : Text) : Prop where
  edge : AtEdge c
  quote : q ∈ quotes
  head : h ∈ heads q
  rest : c.rest = h ++ r

theorem mem_leads {v : Text} : v ∈ leads ↔ ∃ name s s' : Text,
    name.map Text.fold ∈ addressed ∧ (∀ x ∈ s, (Source.blankSet .wide).has x) ∧
    (∀ x ∈ s', (Source.blankSet .wide).has x) ∧ v = name ++ (s ++ '=' :: s') := by
  simp only [leads, Language.mem_mul]
  constructor
  · rintro ⟨name, ⟨w, hw, hn⟩, _, ⟨s, hs, _, ⟨_, he, s', hs', rfl⟩, rfl⟩, rfl⟩
    rw [mem_spellings_mark (by simp)] at he
    rw [mem_spellings] at hn
    exact ⟨name, s, s', hn ▸ hw, hs, hs', by rw [he]; rfl⟩
  · rintro ⟨name, s, s', hn, hs, hs', rfl⟩
    exact ⟨name, ⟨_, hn, rfl⟩, s ++ '=' :: s', ⟨s, hs, '=' :: s', ⟨['='],
      (mem_spellings_mark (by simp)).2 rfl, s', hs', rfl⟩, rfl⟩, rfl⟩

/-- The first letters of the names. -/
def initials : List Char := ['h', 's', 'a', 'b']

private theorem addressed_words : ∀ w ∈ addressed, (∀ c ∈ w, IsFolded c ∧ Text.isWord c) ∧
    ∃ x t, w = x :: t ∧ x ∈ initials := by
  have hall : addressed.all fun w => (w.all fun c => decide (IsFolded c) && Text.isWord c) &&
      w.head?.any initials.contains := by decide
  intro w hw
  have hw := List.all_eq_true.1 hall w hw
  simp only [Bool.and_eq_true, List.all_eq_true, decide_eq_true_eq, Option.any_eq_true,
    List.contains_iff_mem] at hw
  obtain ⟨hc, x, hx, hi⟩ := hw
  obtain ⟨t, rfl⟩ := List.head?_eq_some_iff.1 hx
  exact ⟨hc, x, t, rfl, hi⟩

theorem isWord_name (hn : name.map Text.fold ∈ addressed) : ∀ x ∈ name, Text.isWord x := by
  intro x hx
  obtain ⟨hf, hw⟩ := (addressed_words _ hn).1 _ (List.mem_map_of_mem hx)
  exact isWord_of_fold hf hw

theorem name_eq_cons (hn : name.map Text.fold ∈ addressed) :
    ∃ x t, name = x :: t ∧ Text.fold x ∈ initials := by
  obtain ⟨-, y, u, hy, hi⟩ := addressed_words _ hn
  obtain ⟨x, t, rfl, rfl, -⟩ := List.map_eq_cons_iff.1 hy
  exact ⟨x, t, rfl, hi⟩

/-- The start of an attribute starts with the first letter of a name. -/
theorem head_eq_cons (hh : h ∈ heads q) :
    ∃ x t, h = x :: t ∧ Text.isWord x ∧ Text.fold x ∈ initials := by
  obtain ⟨_, hl, op, -, rfl⟩ := Language.mem_mul.1 hh
  obtain ⟨name, s, s', hn, -, -, rfl⟩ := mem_leads.1 hl
  obtain ⟨x, t, rfl, hi⟩ := name_eq_cons hn
  exact ⟨x, _, rfl, isWord_name hn x List.mem_cons_self, hi⟩

theorem wordEdge_iff {x : Char} {t : Text} (hc : c.rest = x :: t) (hx : Text.isWord x) :
    (Edge.wordEdge .wide).holds c.before c.peek ↔ AtEdge c := by
  rw [Cursor.peek, hc]
  cases hb : c.before <;> simp [Edge.holds, AtEdge, hb, Scope.isWord, hx]

/-- Where a script address starts that is closed as it is opened, there is a match. -/
theorem matchesAt_of_opens (ho : Opens q c h r) (hc : ∀ x ∈ q, x ∈ r) :
    addressExpr.MatchesAt c := by
  obtain ⟨hedge, hq, hh, hrest⟩ := ho
  obtain ⟨x, t, hx, hw, -⟩ := head_eq_cons hh
  have hedge := (wordEdge_iff (by rw [hrest, hx]; rfl) hw).2 hedge
  obtain ⟨lead, hl, op, hop, rfl⟩ := Language.mem_mul.1 hh
  rw [List.append_assoc] at hrest
  obtain ⟨ns, hlead⟩ := spells_lead.complete (t := ⟨c, []⟩) hl hrest
  have hnext : (c.advance lead.length).rest = op ++ r := Cursor.rest_advance_append hrest
  have hvalue : ∃ u, (choice (values.map .sequence)).Reads ⟨c.advance lead.length, ns⟩ u := by
    simp only [reads_choice_iff (show values.map Expr.sequence ≠ [] by simp [values])]
    cases q with
    | none =>
      have hop : op ++ [] ∈ spellings scheme * runs unspaced := Language.append_mem_mul hop nofun
      rw [List.append_nil] at hop
      obtain ⟨ns', hr⟩ := spells_bare.complete (t := ⟨c.advance lead.length, ns⟩) hop hnext
      exact ⟨_, _, List.mem_map_of_mem (by simp [values]), hr⟩
    | some quote =>
      have hquote : quote = '"' ∨ quote = '\'' := by simpa [quotes] using hq
      obtain ⟨v, r', rfl, hv⟩ := List.eq_append_cons_of_mem (hc quote rfl)
      obtain ⟨k, hk, _, hop', rfl⟩ := Language.mem_mul.1 hop
      obtain ⟨s, hs, w, hw, rfl⟩ := Language.mem_mul.1 hop'
      have hmem : k ++ (s ++ (w ++ (v ++ [quote]))) ∈ spellings [quote] *
          (runs (Source.blankSet .wide) *
            (spellings scheme * (runs (notQuote quote) * spellings [quote]))) :=
        Language.append_mem_mul hk <| Language.append_mem_mul hs <| Language.append_mem_mul hw <|
          Language.append_mem_mul (fun x hx => (has_notQuote hquote).2 fun h => hv (h ▸ hx))
            ((mem_spellings_mark (by rcases hquote with rfl | rfl <;> simp)).2 rfl)
      obtain ⟨ns', hr⟩ := (spells_quoted (by rcases hquote with rfl | rfl <;> decide)).complete
        (t := ⟨c.advance lead.length, ns⟩) (r := r') hmem (by rw [hnext]; simp)
      refine ⟨_, _, List.mem_map_of_mem ?_, hr⟩
      rcases hquote with rfl | rfl <;> simp [values]
  obtain ⟨u, hu⟩ := hvalue
  exact ⟨u, (reads_sequence_cons _).2 ⟨_, ⟨hedge, rfl⟩, (reads_sequence_append _ _).2
    ⟨_, hlead, hu⟩⟩⟩

theorem opens_of_matchesAt (hm : addressExpr.MatchesAt c) :
    ∃ q h r, Opens q c h r ∧ ∀ x ∈ q, x ∈ r := by
  obtain ⟨u, hu⟩ := hm
  obtain ⟨_, ⟨hedge, rfl⟩, hu⟩ := (reads_sequence_cons _).1 hu
  obtain ⟨t, ht, hu⟩ := (reads_sequence_append _ _).1 hu
  obtain ⟨lead, hl, hrest, -⟩ := spells_lead.sound ht
  have hedge : AtEdge c := by
    obtain ⟨name, s, s', hn, -, -, rfl⟩ := mem_leads.1 hl
    obtain ⟨x, v, rfl, -⟩ := name_eq_cons hn
    exact (wordEdge_iff hrest (isWord_name hn x List.mem_cons_self)).1 hedge
  have hquoted {quote : Char} (hquote : quote = '"' ∨ quote = '\'')
      (hr : (Expr.sequence (quotedParts quote)).Reads t u) :
      ∃ q h r, Opens q c h r ∧ ∀ x ∈ q, x ∈ r := by
    obtain ⟨v, hv, hrest', -⟩ :=
      (spells_quoted (by rcases hquote with rfl | rfl <;> decide)).sound hr
    obtain ⟨k, hk, _, hv₁, rfl⟩ := Language.mem_mul.1 hv
    obtain ⟨s, hs, _, hv₂, rfl⟩ := Language.mem_mul.1 hv₁
    obtain ⟨w, hw, _, hv₃, rfl⟩ := Language.mem_mul.1 hv₂
    obtain ⟨v, -, k', hk', rfl⟩ := Language.mem_mul.1 hv₃
    rw [mem_spellings_mark (by rcases hquote with rfl | rfl <;> simp)] at hk'
    refine ⟨some quote, lead ++ (k ++ (s ++ w)), v ++ (k' ++ u.place.rest), ⟨hedge, ?_, ?_, ?_⟩, ?_⟩
    · rcases hquote with rfl | rfl <;> simp [quotes]
    · exact Language.append_mem_mul hl (Language.append_mem_mul hk (Language.append_mem_mul hs hw))
    · rw [hrest, hrest']
      simp
    · rintro _ ⟨⟩
      simp [hk']
  obtain ⟨_, ha, hr⟩ := (reads_choice_iff (by simp [values])).1 hu
  obtain ⟨parts, hp, rfl⟩ := List.mem_map.1 ha
  rcases (by simpa [values] using hp : parts = _ ∨ parts = _ ∨ parts = _) with rfl | rfl | rfl
  · exact hquoted (.inl rfl) hr
  · exact hquoted (.inr rfl) hr
  · obtain ⟨v, hv, hrest', -⟩ := spells_bare.sound hr
    obtain ⟨w, hw, v, -, rfl⟩ := Language.mem_mul.1 hv
    refine ⟨none, lead ++ w, v ++ u.place.rest, ⟨hedge, by simp [quotes], ?_, ?_⟩, nofun⟩
    · exact Language.append_mem_mul hl hw
    · rw [hrest, hrest']
      simp

theorem name_of_reads (hr : addressExpr.Reads ⟨m.start, []⟩ ⟨m.stop, m.notes⟩) :
    (m.group 1).map Text.fold ∈ addressed ∧ AtEdge m.start ∧
      ∃ r, m.start.rest = m.group 1 ++ r := by
  obtain ⟨_, ⟨hedge, rfl⟩, hr⟩ := (reads_sequence_cons _).1 hr
  obtain ⟨t, hn, hr⟩ := (reads_sequence_cons _).1 hr
  have hfree {t u : Trail} (h : (Expr.choice (addressed.map word)).Reads t u) :
      u.notes = t.notes := h.notes_eq rfl
  obtain ⟨name, ⟨w, hw, hf⟩, hrest, -, hup, hnotes⟩ := spells_names.noted hfree hn
  have hnotes : m.notes = [(3, t.place), (2, m.start)] := (hr.notes_eq rfl).trans hnotes
  have hgroup : m.group 1 = name := by simp [Match.group, Match.group?, Match.note?, hnotes, hup]
  rw [mem_spellings] at hf
  subst hf
  obtain ⟨x, v, rfl, -⟩ := name_eq_cons hw
  rw [hgroup]
  exact ⟨hw, (wordEdge_iff hrest (isWord_name hw x List.mem_cons_self)).1 hedge, _, hrest⟩

private theorem isWord_of_not_unspaced {x : Char} (h : unspaced.has x = false) :
    Text.isWord x = false := by
  have hr : unspaced.ranges = [(0, 8), (14, 31), (33, 61), (63, 132), (134, 159), (161, 5759),
      (5761, 8191), (8203, 8231), (8234, 8238), (8240, 8286), (8288, 12287), (12289, 1114111)] :=
    rfl
  have hblanks : (Source.blankSet .wide).ranges = [(9, 13), (32, 32), (133, 133), (160, 160),
      (5760, 5760), (8192, 8202), (8232, 8233), (8239, 8239), (8287, 8287), (12288, 12288)] := rfl
  have hx : x.toNat < 0xD800 ∨ 0xDFFF < x.toNat ∧ x.toNat < 0x110000 := x.valid
  have hout : x.toNat = 62 ∨ (Source.blankSet .wide).has x := by
    rw [← Bool.not_eq_true, CharSet.has_iff (by decide), hr] at h
    rw [CharSet.has_iff (by decide), hblanks]
    simp only [CharSet.Within, List.mem_cons, List.not_mem_nil, or_false, exists_eq_or_imp,
      exists_eq_left] at h ⊢
    omega
  rcases hout with hclose | hblank
  · obtain rfl : x = '>' := Char.toNat_inj.1 hclose
    decide
  · exact (has_blank hblank).2

section steps

/-- The automaton of the pattern. -/
private abbrev addressAutomaton : Automaton := .ofExpr addressExpr

/-- No match ends at the start, nor behind a node, unless the node reads a quote at the end of an
address or is in the run that ends an address without quotes. -/
private theorem address_ways :
    addressAutomaton.start.all (·.goal.isSome) ∧
      ((addressAutomaton.steps.toList.zipIdx).all fun s =>
        s.1.ways.all (·.goal.isSome) || s.2 == 1 || s.2 == 18 ||
          s.1.ways == [⟨[], [], some 36⟩, ⟨[], [], none⟩]) ∧
      addressAutomaton.steps[36]? =
        some ⟨unspaced, [⟨[], [], some 36⟩, ⟨[], [], none⟩]⟩ := by
  decide +kernel

private theorem address_quote {n : Nat} {s : Pattern.Step} {x : Char} (hn : n = 1 ∨ n = 18)
    (hs : addressAutomaton.steps[n]? = some s) (hx : s.set.has x) : Text.isWord x = false := by
  rcases hn with rfl | rfl
  · have hset : s.set = (CharSet.single '"').anyCase := Automaton.set_eq rfl hs
    rw [hset] at hx
    obtain rfl := (has_mark (by simp)).1 hx
    decide
  · have hset : s.set = (CharSet.single '\'').anyCase := Automaton.set_eq rfl hs
    rw [hset] at hx
    obtain rfl := (has_mark (by simp)).1 hx
    decide

theorem stop_of_occurrence {p : Pattern} {t : Text} (hp : p.Means addressExpr)
    (hm : m ∈ p.occurrences t) : AtEdge m.stop ∨ ∀ x ∈ m.stop.peek, Text.isWord x = false := by
  have hpref := occurrences_preferred hm
  rw [hp.automaton] at hpref
  rcases Automaton.preferred_last hpref with hstop | ⟨n, s, x, notes, hs, hx, hset, hlast⟩
  · have hstart := address_ways.1
    simp only [List.all_eq_true, Option.isSome_iff_ne_none] at hstart
    exact absurd hstop (Automaton.place_ne_of_preferred hstart hpref)
  have hstep : (s, n) ∈ addressAutomaton.steps.toList.zipIdx :=
    List.mk_mem_zipIdx_iff_getElem?.2 (by rw [Array.getElem?_toList]; exact hs)
  have hcases := List.all_eq_true.1 address_ways.2.1 _ hstep
  simp only [Bool.or_eq_true, List.all_eq_true, beq_iff_eq, Option.isSome_iff_ne_none] at hcases
  rcases hcases with ((hread | hn) | hn) | hloop
  · exact absurd rfl (Automaton.place_ne_of_preferred hread hlast)
  · refine .inl fun y hy => ?_
    obtain rfl := Option.some.inj (hx.symm.trans hy)
    exact address_quote (.inl hn) hs hset
  · refine .inl fun y hy => ?_
    obtain rfl := Option.some.inj (hx.symm.trans hy)
    exact address_quote (.inr hn) hs hset
  · rw [hloop] at hlast
    exact .inr fun y hy =>
      isWord_of_not_unspaced (Automaton.not_has_of_loop address_ways.2.2 hlast y hy)

end steps
end matching
end MailMarkup.Script
