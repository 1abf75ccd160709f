import MailMarkup.Proofs.Rule.AnyOpening
import MailMarkup.Proofs.Rule.Sanitizing
import MailMarkup.Proofs.Rule.TagPatterns
import MailMarkup.Rule.Forbidden
import MailMarkup.Rule.Support

/-!
# Unsafe tags

Five rules together report each opening tag that is not one of the safe ones, and no other: one rule
for each list of names, and one that reports the names which are on no list. The lists are looked up
by patterns that take names in any case, the last rule compares names in lower case, and a pattern
may see a tag where another one has matched. A pattern that takes no opening bracket but the first
finds a match wherever it has one, so nothing is lost between the rules.
-/
namespace MailMarkup

private theorem Cursor.Reaches.of_index_le {c d e : Cursor} (hd : c.Reaches d) (he : c.Reaches e)
    (hle : d.pos.index ≤ e.pos.index) : d.Reaches e := by
  have hcd := hd.index_le
  refine ⟨e.pos.index - d.pos.index, ?_⟩
  calc e = c.advance (e.pos.index - c.pos.index) := he.eq_advance_index
    _ = c.advance ((d.pos.index - c.pos.index) + (e.pos.index - d.pos.index)) := by
      congr 1
      omega
    _ = d.advance (e.pos.index - d.pos.index) := by
      rw [Cursor.advance_add, ← hd.eq_advance_index]

namespace Pattern

/-- The only opening bracket that an expression reads is the first character. -/
def OneBracket (e : Expr) : Prop :=
  ∀ ⦃c u⦄, e.Reads ⟨c, []⟩ u → ∃ w, '<' ∉ w ∧ c.rest = '<' :: (w ++ u.place.rest)

/-- No match starts in another one, so every place where there is one is found. -/
theorem Successive.exists_start {e : Expr} {c s : Cursor} {ms : List Match} (he : OneBracket e)
    (h : Successive e c ms) (hs : c.Reaches s) (hm : e.MatchesAt s) : ∃ m ∈ ms, m.start = s := by
  induction h with
  | done hno => exact absurd hm (hno s hs)
  | @found c m ms hstart hr hfirst h ih =>
    have hle : m.start.pos.index ≤ s.pos.index := Nat.not_lt.1 fun hlt => hfirst s hs hlt hm
    obtain ⟨w, hw, hrest⟩ := he hr
    obtain ⟨n, rfl⟩ := hstart.of_index_le hs hle
    obtain ⟨u, hu⟩ := hm
    obtain ⟨v, -, hv⟩ := he hu
    rcases n with _ | n
    · exact ⟨m, List.mem_cons_self, rfl⟩
    · have hdrop : (w ++ m.stop.rest).drop n = '<' :: (v ++ u.place.rest) := by
        have hplace : (m.start.advance (n + 1)).rest = _ := hv
        rw [Cursor.rest_advance, hrest] at hplace
        exact hplace
      have hlen : w.length ≤ n := by
        refine Nat.not_lt.1 fun hlt => hw ?_
        rw [List.drop_append_of_le_length hlt.le] at hdrop
        have hhead : (w.drop n ++ m.stop.rest).head? = some '<' := by rw [hdrop]; rfl
        have hne : w.drop n ≠ [] := by simpa using hlt
        rw [List.head?_append_of_ne_nil _ hne] at hhead
        exact List.mem_of_mem_drop (List.mem_of_mem_head? hhead)
      have hstop : m.stop = m.start.advance (w.length + 1) :=
        hr.reaches.eq_advance (t := '<' :: w) hrest
      have hreach : m.stop.Reaches (m.start.advance (n + 1)) := by
        refine ⟨n - w.length, ?_⟩
        rw [hstop, ← Cursor.advance_add]
        congr 1
        omega
      obtain ⟨m', hm', heq⟩ := ih hreach
      exact ⟨m', List.mem_cons_of_mem _ hm', heq⟩

end Pattern

namespace Tags
open Pattern Forbidden

/-- An expression finds the opening tags with one of the names, which its first group takes. -/
structure FindsNames (e : Expr) (tags : List String) : Prop where
  readsSome : e.readsSome
  sound {m : Match} (h : e.Reads ⟨m.start, []⟩ ⟨m.stop, m.notes⟩) :
    ∃ body, '<' ∉ body ∧
      m.start.rest = '<' :: (m.group 1 ++ (body ++ m.stop.rest)) ∧
      (body ++ m.stop.rest).head?.any Text.isWord = false ∧
      ∃ tag ∈ tags, (m.group 1).map Text.fold = tag.toList
  complete {c : Cursor} {name body slash r : Text} (ho : IsOpening tags name body slash)
    (hc : c.rest = '<' :: (name ++ (body ++ (slash ++ '>' :: r)))) : e.MatchesAt c

section finding
open Expr
variable {tags : List String} {e : Expr}

theorem Listed.word (h : Listed tags) {name : Text}
    (hn : ∃ tag ∈ tags, name.map Text.fold = tag.toList) : ∀ x ∈ name, Text.isWord x :=
  (namePart h).word name (mem_nameForms.2 hn)

theorem IsOpening.stops {name body slash : Text} (ho : IsOpening tags name body slash) (r : Text) :
    (body ++ (slash ++ '>' :: r)).head?.any Text.isWord = false := by
  have hmarks : Text.isWord '>' = false ∧ Text.isWord '/' = false := by decide
  cases body with
  | nil => rcases ho.slash with rfl | rfl <;> simp [hmarks]
  | cons x body => exact ho.edge x rfl

private theorem findsNames_opening (h : Listed tags) :
    FindsNames (opened (openingParts tags)) tags where
  readsSome := readsSome_opened _
  sound {m} hr := by
    obtain ⟨ho, hrest⟩ := opening_sound h hr
    have hslash : '<' ∉ m.group 3 ++ ['>'] := by
      rcases ho.slash with hs | hs <;> rw [hs] <;> decide
    refine ⟨m.group 2 ++ (m.group 3 ++ ['>']), ?_, by simpa using hrest, ?_, ho.name⟩
    · exact fun hx => (List.mem_append.1 hx).elim (fun hx => (ho.body _ hx).1 rfl) hslash
    · simpa using ho.stops m.stop.rest
  complete := opening_complete h

/-- An opening tag up to the end of its name. -/
def startParts (tags : List String) : List Expr := [nameGroup tags, .edge (.wordEdge .wide)]

private theorem findsNames_start (h : Listed tags) :
    FindsNames (opened (startParts tags)) tags where
  readsSome := readsSome_opened _
  sound {m} hr := by
    obtain ⟨t₁, h₁, hr⟩ := (reads_sequence_cons _).1 hr
    obtain ⟨t₂, h₂, hr⟩ := (reads_sequence_cons _).1 hr
    obtain ⟨hedge, ht⟩ : (Edge.wordEdge .wide).holds t₂.place.before t₂.place.peek = true ∧
      ⟨m.stop, m.notes⟩ = t₂ := hr
    obtain ⟨v, hv, hopen, -⟩ := (spells_letter (by decide)).sound h₁
    rw [mem_spellings_mark (by simp)] at hv
    obtain ⟨name, hname, hrest, hplace, hup, hnotes⟩ := (spells_name h).noted (notes_name h) h₂
    have hn₁ : t₁.notes = [] := h₁.notes_eq rfl
    have hnotes' : m.notes = [(3, t₂.place), (2, t₁.place)] := by
      rw [← hn₁, ← hnotes, ← ht]
    have hgroup : m.group 1 = name := by
      simp [Match.group, Match.group?, Match.note?, hnotes', hup]
    have hstop : m.stop.rest = t₂.place.rest := by rw [← ht]
    change m.start.rest = v ++ t₁.place.rest at hopen
    rw [hplace, (namePart h).wordEdge hname hrest] at hedge
    refine ⟨[], List.not_mem_nil, ?_, ?_, ?_⟩
    · rw [hopen, hrest, hv, hgroup, hstop]
      rfl
    · rw [List.nil_append, hstop, Option.any_eq_false]
      exact fun x hx => by simpa using hedge x hx
    · rw [hgroup]
      exact mem_nameForms.1 hname
  complete {c name body slash r} ho hc := by
    have hname : name ∈ nameForms tags := mem_nameForms.2 ho.name
    have hfront : (Expr.sequence [.letter '<', nameGroup tags]).Spells
        (spellings ['<'] * nameForms tags) :=
      .cons (spells_letter (by decide)) (.group 1 (spells_name h))
    obtain ⟨ns, hr⟩ := hfront.complete (t := ⟨c, []⟩)
      (Language.append_mem_mul (a := ['<']) ((mem_spellings_mark (by simp)).2 rfl) hname) hc
    have hnext : c.next.rest = name ++ (body ++ (slash ++ '>' :: r)) := by simp [hc]
    have hedge := ((namePart h).wordEdge hname hnext).2 fun x hx => by
      simpa using (Option.any_eq_false _ _).1 (ho.stops r) x hx
    exact ⟨_, (reads_sequence_append [_, _] [_]).2 ⟨_, hr, hedge, rfl⟩⟩

private theorem ordered_start (tags : List String) : (opened (startParts tags)).Ordered := by
  refine ordered_opened ?_
  simp only [startParts, List.forall_mem_cons]
  exact ⟨ordered_nameGroup tags, trivial, nofun⟩

private def startPieces (w : Text) (ws : List Text) : List Source.Piece :=
  [⟨.edge (.wordEdge .wide), 0, false⟩, Source.wordGroup 1 w ws, Source.letter '<']

private theorem ends_start {w : Text} {ws : List Text} (hne : w ≠ [])
    (hw : ∀ v ∈ w :: ws, ∀ c ∈ v, Source.isPlain c) :
    ∃ s, Source.Ends 0 .anyCase
      ⟨'<' :: '(' :: (w ++ (ws.flatMap ('|' :: ·) ++ ')' :: ['\\', 'b'])), 0, 0, []⟩ [] []
      (Source.alternatives [] (startPieces w ws), s) := by
  apply Exists.intro
  refine .letter rfl rfl (.wordGroup rfl hne hw ?_)
  exact .primitive (w := ['b']) (by decide) rfl .stop

private theorem read_start (h : Listed tags) :
    Source.read ("<(" ++ alternatives tags ++ ")\\b").toList .anyCase =
      .ok (opened (startParts tags)) := by
  have hgroup := weight_nameGroup h
  obtain ⟨tag, rest, rfl, hne, hplain⟩ := h.cons
  obtain ⟨s, hs⟩ := ends_start hne hplain
  have hsource : ("<(" ++ alternatives (tag :: rest) ++ ")\\b").toList =
      '<' :: '(' :: (tag.toList ++
        ((rest.map String.toList).flatMap ('|' :: ·) ++ ')' :: ['\\', 'b'])) := by
    simp [toList_alternatives]
  have hexpr : .sequence ((startPieces tag.toList (rest.map String.toList)).reverse.map
      Source.Piece.expr) = opened (startParts (tag :: rest)) := by
    simp only [startPieces, List.reverse_cons, List.reverse_nil, List.nil_append,
      List.cons_append, List.map_cons, Source.expr_wordGroup]
    rfl
  have hlow : Source.Low 3 (startPieces tag.toList (rest.map String.toList)) := by
    simp only [startPieces, Source.Low, List.forall_mem_cons]
    exact ⟨Nat.zero_le _, Source.height_wordGroup .., Nat.zero_le _, List.forall_mem_nil _⟩
  have hweight : (opened (startParts (tag :: rest))).weight ≤ 752 * 18 * 3 := by
    refine weight_opened_le (by decide) ?_
    simp only [startParts, List.forall_mem_cons]
    exact ⟨hgroup, by decide, List.forall_mem_nil _⟩
  rw [hsource, ← hexpr]
  refine Source.read_of_ends hs hlow (by decide) ?_
  rw [hexpr]
  calc Source.nodeSize * (opened (startParts (tag :: rest))).weight
      ≤ Source.nodeSize * (752 * 18 * 3) := Nat.mul_le_mul_left _ hweight
    _ ≤ sizeLimit := by decide

private theorem FindsNames.oneBracket (h : FindsNames e tags) (hl : Listed tags) :
    OneBracket e := by
  intro c u hr
  obtain ⟨body, hbody, hrest, -, hname⟩ := h.sound (m := ⟨c, u.place, u.notes⟩) hr
  refine ⟨_ ++ body, fun hm => ?_, by simpa using hrest⟩
  rcases List.mem_append.1 hm with hm | hm
  · exact absurd (hl.word hname _ hm) (by decide)
  · exact hbody hm

variable {p q : Pattern} {t : Text} {m : Match}

theorem FindsNames.name_mem (h : FindsNames e tags) (hp : p.Means e) (hm : m ∈ p.occurrences t) :
    ∃ tag ∈ tags, (m.group 1).map Text.fold = tag.toList := by
  obtain ⟨-, -, -, -, hname⟩ := h.sound ((hp.occurrences_successive h.readsSome t).reads hm)
  exact hname

private theorem FindsNames.exists_name (h : FindsNames e tags) (hl : Listed tags) (hp : p.Means e)
    (hq : q.Means anyExpr) (hm : m ∈ q.occurrences t)
    (hname : ∃ tag ∈ tags, (m.group 1).map Text.fold = tag.toList) :
    ∃ m' ∈ p.occurrences t, m'.group 1 = m.group 1 := by
  have hany := hq.occurrences_successive rfl t
  obtain ⟨htag, hrest⟩ := anyNamePart.sound (hany.reads hm)
  have ho : IsOpening tags (m.group 1) (m.group 2) (m.group 3) :=
    ⟨hname, htag.edge, htag.body, htag.slash⟩
  have hsucc := hp.occurrences_successive h.readsSome t
  obtain ⟨m', hm', hstart⟩ := hsucc.exists_start (h.oneBracket hl) (hany.reaches hm)
    (h.complete ho hrest)
  obtain ⟨body, -, hrest', hstop, hname'⟩ := h.sound (hsucc.reads hm')
  rw [hstart, hrest] at hrest'
  obtain ⟨heq, -⟩ := Text.append_stop_inj (hl.word hname) (hl.word hname') (ho.stops _) hstop
    (List.cons.inj hrest').2
  exact ⟨m', hm', heq.symm⟩

end finding
end Tags

/-- A finding names a tag: the tag stands in its message, in brackets. -/
def Finding.Names (f : Finding) (tag : String) : Prop :=
  ("<" ++ tag ++ ">").toList <:+: f.message.toList

/-- A message that starts with a tag, and has no other brackets, names that tag alone. -/
theorem Finding.names_iff {f : Finding} {tag t : String} {r : Text}
    (hf : f.message.toList = '<' :: (tag.toList ++ '>' :: r))
    (htag : ∀ x ∈ tag.toList, x ≠ '<' ∧ x ≠ '>') (hr : ∀ x ∈ r, x ≠ '<' ∧ x ≠ '>') :
    f.Names t ↔ t = tag := by
  have hnames : f.Names t ↔
      ('<' :: (t.toList ++ ['>'])) <:+: ('<' :: (tag.toList ++ '>' :: r)) := by
    rw [Finding.Names, hf]
    simp
  rw [hnames]
  constructor
  · rintro ⟨a, b, h⟩
    rcases a with _ | ⟨x, a⟩
    · have hcut : tag.toList ++ '>' :: r = t.toList ++ '>' :: b := by simpa using h.symm
      rcases List.append_eq_append_iff.1 hcut with ⟨u, htu, hu⟩ | ⟨u, htu, hu⟩
      · rcases u with _ | ⟨y, u⟩
        · exact String.toList_inj.1 (by simpa using htu)
        · obtain ⟨rfl, rfl⟩ := List.cons.inj hu
          exact absurd rfl (hr '>' (by simp)).2
      · rcases u with _ | ⟨y, u⟩
        · exact String.toList_inj.1 (by simpa using htu.symm)
        · obtain ⟨rfl, rfl⟩ := List.cons.inj hu
          exact absurd rfl (htag '>' (by simp [htu])).2
    · have hmem : '<' ∈ tag.toList ++ '>' :: r := by
        have htail := (List.cons.inj h).2
        rw [← htail]
        simp
      rcases List.mem_append.1 hmem with hmem | hmem
      · exact absurd rfl (htag '<' hmem).1
      · rcases List.mem_cons.1 hmem with hmem | hmem
        · exact absurd hmem (by decide)
        · exact absurd rfl (hr '<' hmem).1
  · rintro rfl
    exact ⟨[], r, by simp⟩

namespace Support
open Pattern Tags Forbidden

/-- The rules that report tags by their names. -/
def tagRules : List Rule :=
  [noDangerousTags, noHeadingTags, noParagraphTags, noBlockTags, emailSafeTags]

/-- The rules with the names that each is there for. -/
def reporters : List (Rule × (String → Prop)) :=
  [(noDangerousTags, (· ∈ dangerous)), (noHeadingTags, (· ∈ headings)),
    (noParagraphTags, (· ∈ ["p"])), (noBlockTags, (· ∈ blocks)),
    (emailSafeTags, fun tag => tag ∉ safeTags ∧ coveredElsewhere tag = false)]

section names
variable {m : Match}

private theorem isName_safe : ∀ tag ∈ safeTags, IsName tag.toList :=
  .of_all (by decide +kernel)

theorem listed_names : ∀ tags ∈ [dangerous, headings, ["p"], blocks],
    Listed tags ∧ ∀ tag ∈ tags, tag ∉ safeTags := by
  have hsafe : ∀ tags ∈ [dangerous, headings, ["p"], blocks], ∀ tag ∈ tags, tag ∉ safeTags := by
    decide +kernel
  refine fun tags h => ⟨?_, hsafe tags h⟩
  rcases List.mem_cons.1 h with rfl | h
  · exact ⟨by decide +kernel, by decide +kernel, fun tag => isName_of_mem⟩
  · exact listed_of_mem h

/-- In lower case a name is one that stands in a pattern only if the pattern takes it. -/
theorem fold_name (h : IsName (nameOf m).toList) :
    (m.group 1).map Text.fold = (nameOf m).toList := by
  have hlower : (nameOf m).toList = Text.lower (m.group 1) := String.toList_ofList
  calc (m.group 1).map Text.fold = (Text.lower (m.group 1)).map Text.fold := by
        simp [Text.lower, Text.fold_lowerChar]
    _ = (nameOf m).toList.map Text.fold := by rw [hlower]
    _ = (nameOf m).toList := by
        refine (List.map_congr_left fun c hc => ?_).trans (List.map_id _)
        exact (h.folded c hc).2

private theorem nameOf_unbracketed (h : ∀ x ∈ m.group 1, Text.isWord x) :
    ∀ x ∈ (nameOf m).toList, x ≠ '<' ∧ x ≠ '>' := by
  have hlower : (nameOf m).toList = Text.lower (m.group 1) := String.toList_ofList
  rw [hlower]
  refine List.forall_mem_map.2 fun x hx => ?_
  have hw := h x hx
  cases hu : Text.isUpper x with
  | false =>
    rw [Text.lowerChar_of_not_isUpper hu]
    constructor <;> (rintro rfl; revert hw; decide)
  | true =>
    have hle := (Text.isUpper_iff.1 hu).1
    have hsum := Text.toNat_lowerChar hu
    constructor <;> (intro hx; rw [hx] at hsum; simp at hsum; omega)

end names

/-- Each finding names one tag, which is not safe, and the names for which the rule is there are
all named. -/
structure Reports (found : List Finding) (ms : List Match) (P : String → Prop) : Prop where
  sound : ∀ f ∈ found, ∃ tag, tag ∉ safeTags ∧ ∀ t, f.Names t ↔ t = tag
  complete : ∀ m ∈ ms, P (nameOf m) → ∃ f ∈ found, f.Names (nameOf m)

/-- A text after a tag in a message. -/
def IsTail (rest : String) : Prop :=
  ∃ r : Text, rest.toList = '>' :: r ∧ r.all fun x => x != '<' && x != '>'

section reports
variable {p q : Pattern} {e : Expr} {tags : List String} {t : Text} {m : Match} {rest : String}

theorem names_finding (hm : ∀ x ∈ m.group 1, Text.isWord x) (hrest : IsTail rest)
    (info : RuleInfo) (suggestion tag : String) :
    (finding info m ("<" ++ nameOf m ++ rest) suggestion).Names tag ↔ tag = nameOf m := by
  obtain ⟨r, hr, hfree⟩ := hrest
  refine Finding.names_iff ?_ (nameOf_unbracketed hm) (by simpa using hfree)
  change ("<" ++ nameOf m ++ rest).toList = _
  simp [hr]

theorem reports_listed (hn : FindsNames e tags) (hl : Listed tags)
    (hsafe : ∀ tag ∈ tags, tag ∉ safeTags) (hp : p.Means e) (hq : q.Means anyExpr)
    (hrest : IsTail rest) (info : RuleInfo) (suggestion : Match → String) :
    Reports ((p.occurrences t).map fun m =>
      finding info m ("<" ++ nameOf m ++ rest) (suggestion m)) (q.occurrences t) (· ∈ tags) where
  sound := by
    refine List.forall_mem_map.2 fun m hm => ⟨nameOf m, fun hmem => ?_, ?_⟩
    · obtain ⟨tag, ht, hname⟩ := hn.name_mem hp hm
      rw [fold_name (isName_safe _ hmem)] at hname
      exact hsafe tag ht (String.toList_inj.1 hname ▸ hmem)
    · exact names_finding (hl.word (hn.name_mem hp hm)) hrest info (suggestion m)
  complete m hm hname := by
    have hfold := fold_name (hl.names _ hname)
    obtain ⟨m', hm', hgroup⟩ := hn.exists_name hl hp hq hm ⟨_, hname, hfold⟩
    have heq : nameOf m' = nameOf m := by rw [nameOf, nameOf, hgroup]
    refine ⟨_, List.mem_map_of_mem hm', ?_⟩
    rw [names_finding (hl.word (hn.name_mem hp hm')) hrest, heq]

theorem mem_unlistedTags {seen : List String} {ms : List Match} (h : m ∈ unlistedTags seen ms) :
    m ∈ ms ∧ nameOf m ∉ safeTags := by
  induction ms generalizing seen with
  | nil => cases h
  | cons m' ms ih =>
    simp only [unlistedTags, Bool.or_eq_true, List.contains_iff_mem] at h
    split at h
    · exact (ih h).imp_left (List.mem_cons_of_mem m')
    · rename_i hno
      rcases List.mem_cons.1 h with rfl | h
      · exact ⟨List.mem_cons_self, fun hsafe => hno (.inl (.inl hsafe))⟩
      · exact (ih h).imp_left (List.mem_cons_of_mem m')

private theorem exists_unlisted {seen : List String} {ms : List Match} (hm : m ∈ ms)
    (hsafe : nameOf m ∉ safeTags) (hcovered : coveredElsewhere (nameOf m) = false)
    (hseen : nameOf m ∉ seen) : ∃ m' ∈ unlistedTags seen ms, nameOf m' = nameOf m := by
  induction ms generalizing seen with
  | nil => cases hm
  | cons m' ms ih =>
    simp only [unlistedTags, Bool.or_eq_true, List.contains_iff_mem]
    by_cases heq : nameOf m' = nameOf m
    · rw [heq, if_neg (by simp [hsafe, hcovered, hseen])]
      exact ⟨m', List.mem_cons_self, heq⟩
    · have hm : m ∈ ms := (List.mem_cons.1 hm).resolve_left fun h => heq (h ▸ rfl)
      split
      · exact ih hm hseen
      · have hseen : nameOf m ∉ nameOf m' :: seen := fun h =>
          (List.mem_cons.1 h).elim (fun h => heq h.symm) hseen
        obtain ⟨m'', hm'', h⟩ := ih hm hseen
        exact ⟨m'', List.mem_cons_of_mem _ hm'', h⟩

private theorem reports_unlisted (hq : q.Means anyExpr) (hrest : IsTail rest) (info : RuleInfo)
    (suggestion : String) :
    Reports ((unlistedTags [] (q.occurrences t)).map fun m =>
        finding info m ("<" ++ nameOf m ++ rest) suggestion) (q.occurrences t)
      fun tag => tag ∉ safeTags ∧ coveredElsewhere tag = false := by
  have hword : ∀ m ∈ q.occurrences t, ∀ x ∈ m.group 1, Text.isWord x :=
    fun m hm => (parted_of_occurrence hq hm).1.word
  constructor
  · refine List.forall_mem_map.2 fun m hm => ?_
    obtain ⟨hm, hsafe⟩ := mem_unlistedTags hm
    exact ⟨nameOf m, hsafe, names_finding (hword m hm) hrest info suggestion⟩
  · rintro m hm ⟨hsafe, hcovered⟩
    obtain ⟨m', hm', heq⟩ := exists_unlisted hm hsafe hcovered List.not_mem_nil
    refine ⟨_, List.mem_map_of_mem hm', ?_⟩
    rw [names_finding (hword m' (mem_unlistedTags hm').1) hrest, heq]

end reports
section checks
variable {q : Pattern} {s : Subject} {tags : List String}

theorem reports_check (hq : q.Means anyExpr) (htags : tags ∈ [headings, ["p"], blocks])
    (suggestion : String) (info : RuleInfo) (ix : Index) :
    ∃ found, (check tags suggestion s info).eval ix = .ok found ∧
      Reports found (q.occurrences s.html) (· ∈ tags) := by
  obtain ⟨hl, hsafe⟩ := listed_names tags (List.mem_cons_of_mem _ htags)
  obtain ⟨p, hp, hc⟩ := exists_compile (read_opening hl) (ordered_opening tags)
  exact ⟨_, eval_compiled hc _ ix, reports_listed (findsNames_opening hl) hl hsafe hp hq
    ⟨_, rfl, by decide⟩ info fun _ => suggestion⟩

private theorem reports_checkDangerous (hq : q.Means anyExpr) (info : RuleInfo) (ix : Index) :
    ∃ found, (checkDangerous s info).eval ix = .ok found ∧
      Reports found (q.occurrences s.html) (· ∈ dangerous) := by
  obtain ⟨hl, hsafe⟩ := listed_names dangerous (by simp)
  obtain ⟨p, hp, hc⟩ := exists_compile (read_start hl) (ordered_start dangerous)
  exact ⟨_, eval_compiled hc _ ix, reports_listed (findsNames_start hl) hl hsafe hp hq
    ⟨_, rfl, by decide⟩ info _⟩

private theorem reports_checkTags (hq : q.Means anyExpr)
    (hc : Pattern.compile ⟨anyOpen, .anyCase⟩ = .ok q) (info : RuleInfo) (ix : Index) :
    ∃ found, (checkTags s info).eval ix = .ok found ∧
      Reports found (q.occurrences s.html)
        fun tag => tag ∉ safeTags ∧ coveredElsewhere tag = false :=
  ⟨_, eval_compiled hc _ ix, reports_unlisted hq ⟨_, rfl, by decide⟩ info _⟩

private theorem reports_of_mem (hq : q.Means anyExpr)
    (hc : Pattern.compile ⟨anyOpen, .anyCase⟩ = .ok q)
    (info : RuleInfo) (ix : Index) : ∀ r ∈ reporters,
      ∃ found, (r.1.check s info).eval ix = .ok found ∧
        Reports found (q.occurrences s.html) r.2 := by
  simp only [reporters, List.forall_mem_cons]
  exact ⟨reports_checkDangerous hq info ix, reports_check hq (by simp) _ info ix,
    reports_check hq (by simp) _ info ix, reports_check hq (by simp) _ info ix,
    reports_checkTags hq hc info ix, List.forall_mem_nil _⟩

private theorem exists_reporter {tag : String} (h : tag ∉ safeTags) : ∃ r ∈ reporters, r.2 tag := by
  simp only [reporters, List.exists_mem_cons_iff, List.mem_singleton]
  by_cases hcovered : coveredElsewhere tag
  · simp only [coveredElsewhere, Bool.or_eq_true, List.contains_iff_mem, decide_eq_true_eq]
      at hcovered
    tauto
  · simp [h, hcovered]

end checks

/-- The rules on tags report each opening tag whose name is not a safe one, and name no tag with a
safe name. -/
theorem reports_tags (s : Subject) (info : RuleInfo) (ix : Index) :
    ∃ p, Pattern.compile ⟨anyOpen, .anyCase⟩ = .ok p ∧
      (∀ r ∈ tagRules, ∃ found, (r.check s info).eval ix = .ok found ∧
        ∀ f ∈ found, ∃ tag, tag ∉ safeTags ∧ ∀ t, f.Names t ↔ t = tag) ∧
      ∀ m ∈ p.occurrences s.html, nameOf m ∉ safeTags →
        ∃ r ∈ tagRules, ∃ found, (r.check s info).eval ix = .ok found ∧
          ∃ f ∈ found, f.Names (nameOf m) := by
  obtain ⟨p, hp, hc⟩ := exists_compile read_anyOpen ordered_anyExpr
  have hreports := reports_of_mem hp hc info ix (s := s)
  have hrules : tagRules = reporters.map Prod.fst := rfl
  refine ⟨p, hc, ?_, fun m hm hsafe => ?_⟩
  · rw [hrules]
    refine List.forall_mem_map.2 fun r hr => ?_
    obtain ⟨found, heval, h⟩ := hreports r hr
    exact ⟨found, heval, h.sound⟩
  · obtain ⟨r, hr, hname⟩ := exists_reporter hsafe
    obtain ⟨found, heval, h⟩ := hreports r hr
    exact ⟨r.1, hrules ▸ List.mem_map_of_mem hr, found, heval, h.complete m hm hname⟩

end Support
end MailMarkup
