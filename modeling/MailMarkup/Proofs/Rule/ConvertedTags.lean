import MailMarkup.Proofs.Rule.RewrittenTags
import MailMarkup.Proofs.Rule.Spans

/-!
# No forbidden tag is left

Headings, paragraphs and blocks are turned into spans in any text, however malformed. A tag in the
text that results stands in the place of a tag that was replaced, so it is that of a span, or it was
in the text before, where the pattern would have matched it. So none of the names is left, and the
text is left as it is exactly if none was there.
-/
namespace MailMarkup.Tags
open Text Pattern Forbidden

/-- One of the tags stands in the text. -/
def Has (l : Language Char) (t : Text) : Prop := ∃ u ∈ l, u <:+: t

/-- An expression matches where one of the tags stands. -/
structure Finds (e : Expr) (l : Language Char) : Prop where
  readsSome : e.readsSome
  bracketed : ∀ u ∈ l, IsBracketed u
  matchesAt_iff (c : Cursor) : e.MatchesAt c ↔ ∃ u ∈ l, u <+: c.rest

section passes
variable {e : Expr} {k l : Language Char} {f : Match → Text} {c : Cursor} {t : Text}
  {ms : List Match} {p : Pattern}

theorem Finds.has_iff (h : Finds e l) : Has l c.rest ↔ ∃ s, c.Reaches s ∧ e.MatchesAt s := by
  constructor
  · rintro ⟨u, hu, v, r, hin⟩
    rw [List.append_assoc] at hin
    refine ⟨_, c.reaches_advance v.length, (h.matchesAt_iff _).2 ⟨u, hu, r, ?_⟩⟩
    exact (Cursor.rest_advance_append hin.symm).symm
  · rintro ⟨s, hs, hm⟩
    obtain ⟨u, hu, hin⟩ := (h.matchesAt_iff s).1 hm
    exact ⟨u, hu, hin.isInfix.trans hs.suffix.isInfix⟩

/-- The tags of a rebuilt text were put there, or nothing matched them. -/
theorem has_rebuild (hl : ∀ u ∈ l, IsBracketed u) (hms : Successive e c ms)
    (hf : ∀ m ∈ ms, IsBracketed (f m)) (h : Has l (rebuild f c ms)) :
    (∃ m, f m ∈ l) ∨ ∃ s, c.Reaches s ∧ (∃ u ∈ l, u <+: s.rest) ∧ ¬ e.MatchesAt s := by
  obtain ⟨u, hu, v, r, hin⟩ := h
  rw [List.append_assoc] at hin
  rcases bracketed_of_rebuild hms hf (hl u hu) hin.symm with
    ⟨m, -, rfl⟩ | ⟨s, hs, hrest, hno⟩
  · exact .inl ⟨m, hu⟩
  · exact .inr ⟨s, hs, ⟨u, hu, hrest⟩, hno⟩

theorem Finds.not_has_replace (h : Finds e l) (hp : p.Means e)
    (hf : ∀ m ∈ p.occurrences t, IsBracketed (f m))
    (hno : ∀ m, f m ∉ l) : ¬ Has l (p.replace f t) := by
  rw [replace_eq]
  intro hhas
  rcases has_rebuild h.bracketed (hp.occurrences_successive h.readsSome t) hf hhas with
    ⟨m, hm⟩ | ⟨s, -, hrest, hs⟩
  · exact hno m hm
  · exact hs ((h.matchesAt_iff s).2 hrest)

private theorem Finds.not_has_of_not_has (h : Finds e l) (hp : p.Means e)
    (hf : ∀ m ∈ p.occurrences t, IsBracketed (f m))
    (hk : ∀ u ∈ k, IsBracketed u) (hno : ∀ m, f m ∉ k) (ht : ¬ Has k t) :
    ¬ Has k (p.replace f t) := by
  rw [replace_eq]
  intro hhas
  rcases has_rebuild hk (hp.occurrences_successive h.readsSome t) hf hhas with
    ⟨m, hm⟩ | ⟨s, hs, ⟨u, hu, hrest⟩, -⟩
  · exact hno m hm
  · exact ht ⟨u, hu, hrest.isInfix.trans hs.suffix.isInfix⟩

theorem Finds.occurrences_eq_nil (h : Finds e l) (hp : p.Means e) :
    p.occurrences t = [] ↔ ¬ Has l t := by
  rw [(hp.occurrences_successive h.readsSome t).eq_nil_iff]
  have hhas : Has l t ↔ _ := h.has_iff (c := .start t)
  rw [hhas]
  simp only [not_exists, not_and]

theorem Finds.replace_eq_self (h : Finds e l) (hp : p.Means e) (ht : ¬ Has l t) :
    p.replace f t = t := by
  rw [replace_eq, (h.occurrences_eq_nil hp).2 ht]
  rfl

end passes
section tags
variable {tags : List String} {style : String → String} {m : Match}

/-- The opening tags with one of the names. -/
def openings (tags : List String) : Language Char :=
  {u : Text | ∃ name body slash, IsOpening tags name body slash ∧
    u = '<' :: (name ++ (body ++ (slash ++ ['>'])))}

private theorem finds_opening (h : Listed tags) : Finds (opened (openingParts tags))
    (openings tags) where
  readsSome := readsSome_opened _
  bracketed := by
    rintro _ ⟨name, body, slash, ho, rfl⟩
    have htag : IsTag (nameForms tags) name body slash :=
      ⟨mem_nameForms.2 ho.name, ho.edge, ho.body, ho.slash⟩
    exact ⟨name ++ (body ++ slash), htag.unbracketed (isWord_name h ho.name), by simp⟩
  matchesAt_iff c := by
    constructor
    · rintro ⟨d, hd⟩
      obtain ⟨ho, hrest⟩ := opening_sound h (m := ⟨c, d.place, d.notes⟩) hd
      exact ⟨_, ⟨_, _, _, ho, rfl⟩, d.place.rest, by simpa using hrest.symm⟩
    · rintro ⟨_, ⟨name, body, slash, ho, rfl⟩, r, hrest⟩
      exact opening_complete h ho (by simpa using hrest.symm)

private theorem finds_closing (h : Listed tags) : Finds (opened (closingParts tags))
    (closings tags) where
  readsSome := readsSome_opened _
  bracketed := by
    intro u hu
    obtain ⟨name, blanks, hn, hb, rfl⟩ := mem_closings.1 hu
    have hmark : isWord '<' = false ∧ isWord '>' = false := by decide
    refine ⟨'/' :: (name ++ blanks), List.forall_mem_cons.2 ⟨by decide, ?_⟩, by simp⟩
    refine List.forall_mem_append.2 ⟨fun x hx => ?_, fun x hx => (has_blank (hb x hx)).1⟩
    have hword := isWord_name h hn x hx
    constructor <;> (rintro rfl; simp [hmark] at hword)
  matchesAt_iff c := by
    constructor
    · rintro ⟨d, hd⟩
      obtain ⟨v, hv, hrest, -⟩ := (spells_closing h).sound hd
      exact ⟨v, hv, d.place.rest, hrest.symm⟩
    · rintro ⟨v, hv, r, hrest⟩
      obtain ⟨notes, hm⟩ := (spells_closing h).complete (t := ⟨c, []⟩) hv hrest.symm
      exact ⟨_, hm⟩

private theorem ne_span (hs : "span" ∉ tags) {name : Text}
    (hn : ∃ tag ∈ tags, name.map fold = tag.toList) : name ≠ "span".toList := by
  rintro rfl
  obtain ⟨tag, htag, heq⟩ := hn
  have hfold : "span".toList.map fold = "span".toList := by decide
  rw [hfold] at heq
  exact hs (String.toList_injective heq ▸ htag)

private theorem isWord_span : ∀ x ∈ "span".toList, isWord x = true :=
  List.all_eq_true.1 (by decide)

private theorem end_not_mem_closings (h : Listed tags) (hs : "span" ∉ tags) :
    "</span>".toList ∉ closings tags := by
  intro hend
  obtain ⟨name, blanks, hn, hb, heq⟩ := mem_closings.1 hend
  have heq : "span".toList ++ ['>'] = name ++ (blanks ++ ['>']) :=
    (List.cons.inj (List.cons.inj heq).2).2
  have hblank : (blanks ++ ['>']).head?.any isWord = false := by
    cases blanks with
    | nil => decide
    | cons x blanks => exact (has_blank (hb x List.mem_cons_self)).2
  exact ne_span hs hn (append_stop_inj isWord_span (isWord_name h hn) (by decide) hblank heq).1.symm

private theorem end_not_mem_openings (h : Listed tags) : "</span>".toList ∉ openings tags := by
  rintro ⟨name, body, slash, ho, heq⟩
  have hword := isWord_name h ho.name
  cases name with
  | nil =>
    obtain ⟨tag, htag, hn⟩ := ho.name
    exact (h.names tag htag).ne_nil hn.symm
  | cons x name =>
    obtain ⟨rfl, -⟩ := List.cons.inj (List.cons.inj heq).2
    exact absurd (hword _ List.mem_cons_self) (by decide)

theorem bracketed_end : IsBracketed "</span>".toList := ⟨"/span".toList, by simp, rfl⟩

private theorem span_eq (style : String → String) (m : Match) :
    ∃ r, r.head?.any isWord = false ∧ span style m = '<' :: ("span".toList ++ r) := by
  have hwith : ∃ r, Style.withBase (m.group 2) (style (nameOf m)).toList = ' ' :: r := by
    rw [Style.withBase]
    generalize (Attribute.scan (m.group 2)).filter (!·.is Style.attributeName) = as
    cases as with
    | nil => exact ⟨_, rfl⟩
    | cons a as => exact ⟨_, rfl⟩
  obtain ⟨r, hr⟩ := hwith
  refine ⟨' ' :: (r ++ if (m.group 3).isEmpty then ['>'] else [' ', '/', '>']), ?_, ?_⟩
  · have hblank : isWord ' ' = false := by decide
    exact hblank
  rw [span_def, hr]
  rfl

private theorem span_not_mem_openings (h : Listed tags) (hs : "span" ∉ tags) :
    span style m ∉ openings tags := by
  rintro ⟨name, body, slash, ho, heq⟩
  obtain ⟨r, hr, hspan⟩ := span_eq style m
  have hcut := (List.cons.inj (hspan.symm.trans heq)).2
  exact ne_span hs ho.name
    (append_stop_inj isWord_span (isWord_name h ho.name) hr (ho.ends []) hcut).1.symm

private theorem bracketed_span (hb : ∀ x ∈ m.group 2, x ≠ '<' ∧ x ≠ '>')
    (hs : ∀ name, ∀ x ∈ (style name).toList, x ≠ '<' ∧ x ≠ '>') : IsBracketed (span style m) := by
  refine ⟨"span".toList ++ Style.withBase (m.group 2) (style (nameOf m)).toList ++
    if (m.group 3).isEmpty then [] else [' ', '/'], ?_, ?_⟩
  · refine List.forall_mem_append.2 ⟨List.forall_mem_append.2 ⟨by simp, ?_⟩, ?_⟩
    · exact Style.unbracketed_withBase hb (hs _)
    · split <;> simp
  · rw [span_def]
    split <;> simp

end tags
end MailMarkup.Tags

namespace MailMarkup.Forbidden
open Tags
variable {r : Rule} {tags : List String} {style : String → String}

private theorem exists_check_of_mem (hr : (r, tags, style) ∈ conversions) :
    (∃ suggestion, r.check = check tags suggestion) ∧ "span" ∉ tags := by
  simp only [conversions, List.mem_cons, Prod.mk.injEq, List.not_mem_nil, or_false] at hr
  rcases hr with ⟨rfl, rfl, rfl⟩ | ⟨rfl, rfl, rfl⟩ | ⟨rfl, rfl, rfl⟩
  all_goals exact ⟨⟨_, rfl⟩, by decide +kernel⟩

/-- A rule that turns elements into spans has a result on every text. No opening or closing tag with
one of its names is left there, so its check reports nothing, and it leaves a text as it is exactly
if no such tag was there. -/
theorem repaired_converts (hr : (r, tags, style) ∈ conversions) (s : Subject) (info : RuleInfo)
    (ix : Index) :
    ∃ out, (r.repaired s).eval ix = .ok out ∧
      (r.check { s with html := out } info).eval ix = .ok [] ∧
      ¬ Has (Tags.openings tags) out ∧ ¬ Has (closings tags) out ∧
      (out = s.html ↔ ¬ Has (Tags.openings tags) s.html ∧ ¬ Has (closings tags) s.html) := by
  obtain ⟨hfix, hconvertible⟩ := convertible_of_mem hr
  obtain ⟨⟨suggestion, hcheck⟩, hspan⟩ := exists_check_of_mem hr
  have ht := hconvertible.toListed
  have hopen := finds_opening ht
  have hclose := finds_closing ht
  obtain ⟨p, hp, hopening⟩ := exists_compile (read_opening ht) (ordered_opening tags)
  obtain ⟨q, hq, hclosing⟩ := exists_compile (read_closing ht) (ordered_closing tags)
  let first := p.replace (span style) s.html
  let out := q.replace (fun _ => "</span>".toList) first
  have hfirst : ¬ Has (Tags.openings tags) first := by
    refine hopen.not_has_replace hp (fun m hm => ?_) fun m => span_not_mem_openings ht hspan
    have hm := (hp.occurrences_successive hopen.readsSome s.html).reads hm
    refine bracketed_span (opening_sound ht hm).1.body fun name x hx => ?_
    obtain ⟨-, hlt, hgt⟩ := (isQuotable_of_mem hr name).not_mem
    exact ⟨fun h => hlt (h ▸ hx), fun h => hgt (h ▸ hx)⟩
  have hnone : ¬ Has (Tags.openings tags) out :=
    hclose.not_has_of_not_has hq (fun _ _ => bracketed_end) hopen.bracketed
      (fun _ => end_not_mem_openings ht) hfirst
  have hnone' : ¬ Has (closings tags) out :=
    hclose.not_has_replace hq (fun _ _ => bracketed_end) fun _ => end_not_mem_closings ht hspan
  refine ⟨out, ?_, ?_, hnone, hnone', ?_⟩
  · rw [Rule.repaired, hfix]
    exact (eval_compiled hopening _ ix).trans (eval_compiled hclosing _ ix)
  · rw [hcheck]
    refine (eval_compiled hopening _ ix).trans ?_
    rw [(hopen.occurrences_eq_nil hp).2 hnone]
    rfl
  · constructor
    · intro heq
      exact ⟨heq ▸ hnone, heq ▸ hnone'⟩
    · rintro ⟨ho, hc⟩
      have hsame : first = s.html := hopen.replace_eq_self hp ho
      exact (hclose.replace_eq_self hq (hsame ▸ hc)).trans hsame

/-- A tag that another breaks off, and closing tags that close nothing. -/
theorem repaired_converts_broken :
    (noParagraphTags, ["p"], fun _ => "display:block;margin:0 0 16px 0;") ∈ conversions ∧
      ∃ out, (noParagraphTags.repaired ⟨"</p><p <P/></P ></p".toList, {}⟩).eval (.new [] 1) =
          .ok out ∧
        (noParagraphTags.check ⟨out, {}⟩ noParagraphTags.info).eval (.new [] 1) = .ok [] ∧
        out ≠ "</p><p <P/></P ></p".toList := by
  have hr : (noParagraphTags, ["p"], fun _ => "display:block;margin:0 0 16px 0;") ∈ conversions :=
    by simp [conversions]
  obtain ⟨out, hout, hcheck, -, -, hsame⟩ := repaired_converts hr
    ⟨"</p><p <P/></P ></p".toList, {}⟩ noParagraphTags.info (.new [] 1)
  refine ⟨hr, out, hout, hcheck, fun heq => (hsame.1 heq).2 ?_⟩
  have hend : "</p>".toList ∈ closings ["p"] :=
    mem_closings.2 ⟨['p'], [], ⟨"p", by decide, by decide⟩, List.forall_mem_nil _, rfl⟩
  exact ⟨_, hend, by decide⟩

end MailMarkup.Forbidden
