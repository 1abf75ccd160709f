import MailMarkup.Proofs.Document.Ceilings
import MailMarkup.Proofs.Document.Plain
import MailMarkup.Proofs.Rule.Sanitizing
import MailMarkup.Proofs.Rule.TagEdits
import MailMarkup.Proofs.Rule.TagPatterns

/-!
# Elements turned into spans

Headings, paragraphs and blocks are turned into spans in two passes over the text, one for the
opening tags and one for the closing tags. On the text of a plain forest the passes do to each tag
what turning elements into spans does to each head, so the result is the text of the forest with
its elements turned into spans.
-/
namespace MailMarkup
open Text Reader Pattern Forbidden

/-- The head of an element with one of the names, as that of a span with the style of the name
under its own. -/
def Head.toSpan (tags : List String) (style : String → String) (h : Head) : Head :=
  if String.ofList h.tag ∈ tags then
    { h with
      tag := "span".toList
      attributes := Attributes.restyled (style (String.ofList h.tag)).toList h.attributes }
  else h

/-- A forest with all elements of the names turned into spans. -/
def Forest.toSpans (tags : List String) (style : String → String) (f : Forest) : Forest :=
  f.mapHeads (Head.toSpan tags style)

section passes
variable {as : List Expr} {f : Match → Text} {t : Text}

/-- What a pass over the text of a plain forest does to the tags. -/
structure TagPass (as : List Expr) (f : Match → Text) (o o' c c' : Head → Text) : Prop where
  opening : ∀ h : Head, h.Plain → Rewrites (opened as) f (o h) (o' h)
  closing : ∀ h : Head, h.Plain → Rewrites (opened as) f (c h) (c' h)
  comment : ∀ ⦃d r⦄, d.rest = '<' :: '!' :: r → ¬ (opened as).MatchesAt d

variable {o o' c c' : Head → Text}

private theorem TagPass.rewrites_comment (hp : TagPass as f o o' c c') (ht : IsUnbracketed t) :
    Rewrites (opened as) f ("<!--".toList ++ t ++ "-->".toList)
      ("<!--".toList ++ t ++ "-->".toList) :=
  rewrites_unmatched (t := '!' :: '-' :: '-' :: (t ++ ['-', '-', '>'])) (by simp [ht.1])
    fun _ _ hd => hp.comment hd

private theorem TagPass.rewrites_content (_ : TagPass as f o o' c c') :
    ∀ n : Forest, PlainContent n →
    Rewrites (opened as) f (n.writeBy o c) (n.writeBy o' c')
  | [], _ => .nil _ _
  | [.text _ _], h => (rewrites_text h.2.1).append (.nil _ _)

mutual

private theorem TagPass.rewrites_node (hp : TagPass as f o o' c c') : ∀ n : Node, n.Plain →
    Rewrites (opened as) f (n.writeBy o c) (n.writeBy o' c')
  | .element h cs, ⟨hh, hcs⟩ => by
    rw [Node.writeBy_element, Node.writeBy_element]
    by_cases hv : h.tag ∈ voidTags
    · simpa [hv] using hp.opening h hh
    rw [if_neg hv] at hcs
    have hchildren : Rewrites (opened as) f (Forest.writeBy o c cs) (Forest.writeBy o' c' cs) := by
      split at hcs
      · exact hp.rewrites_content cs hcs
      · exact hp.rewrites_forest cs hcs
    simpa [hv] using ((hp.opening h hh).append hchildren).append (hp.closing h hh)
  | .text _ _, h => rewrites_text h.2
  | .comment _ _, h => hp.rewrites_comment h

theorem TagPass.rewrites_forest (hp : TagPass as f o o' c c') : ∀ n : Forest, n.Plain →
    Rewrites (opened as) f (n.writeBy o c) (n.writeBy o' c')
  | [], _ => .nil _ _
  | n :: ns, ⟨hn, _, hns⟩ => (hp.rewrites_node n hn).append (hp.rewrites_forest ns hns)

end

end passes

section tags
open Expr Tags
variable {tags : List String} {c : Cursor} {d : Trail} {h : Head} {name body slash r s : Text}

theorem isWord_name (ht : Listed tags) (hn : ∃ tag ∈ tags, name.map Text.fold = tag.toList) :
    ∀ x ∈ name, isWord x = true := by
  obtain ⟨tag, htag, hn⟩ := hn
  intro x hx
  have hx : fold x ∈ tag.toList := hn ▸ List.mem_map_of_mem hx
  exact isWord_of_fold ((ht.names tag htag).folded _ hx) ((ht.names tag htag).word _ hx)

theorem Tags.IsOpening.ends (ho : IsOpening tags name body slash) (r : Text) :
    (body ++ (slash ++ '>' :: r)).head?.any isWord = false := by
  cases body with
  | nil => rcases ho.slash with rfl | rfl <;> rfl
  | cons x body => exact ho.edge x rfl

theorem mem_tags_of_fold (hh : h.Plain) (hn : ∃ tag ∈ tags, h.tag.map fold = tag.toList) :
    String.ofList h.tag ∈ tags := by
  obtain ⟨tag, htag, hn⟩ := hn
  rw [← hh.fold_tag, hn, String.ofList_toList]
  exact htag

private theorem Tags.IsOpening.eq_written (ht : Listed tags) (ho : IsOpening tags name body slash)
    (hh : h.Plain) (heq : '<' :: (name ++ (body ++ (slash ++ '>' :: s))) = h.write ++ r) :
    name = h.tag ∧ body = Attributes.write h.attributes ∧ slash = [] ∧ s = r := by
  have hrest : name ++ (body ++ (slash ++ '>' :: s)) =
      h.tag ++ (Attributes.write h.attributes ++ '>' :: r) := by
    simpa [Head.write] using heq
  obtain ⟨hname, hrest⟩ := append_stop_inj (isWord_name ht ho.name) hh.isWord (ho.ends s)
    (any_isWord_attributes _ _) hrest
  have hfree {t : Text} (ht : '>' ∉ t) : ∀ x ∈ t, (x != '>') = true := fun x hx => by
    rw [bne_iff_ne]
    rintro rfl
    exact ht hx
  have hbody : '>' ∉ body ++ slash := by
    rw [List.mem_append, not_or]
    refine ⟨fun hx => (ho.body _ hx).2 rfl, ?_⟩
    rcases ho.slash with rfl | rfl <;> decide
  rw [← List.append_assoc] at hrest
  obtain ⟨hbody, hs⟩ := append_stop_inj (hfree hbody) (hfree hh.unbracketed.2.2) rfl rfl hrest
  have hslash : slash = [] := by
    refine ho.slash.resolve_right fun hs => getLast?_attributes h.attributes ?_
    rw [← hbody, hs, List.getLast?_concat]
  subst hslash
  exact ⟨hname, by simpa using hbody, rfl, by simpa using hs⟩

theorem not_matches_opening (ht : Listed tags) {x : Char} (hx : isWord x = false)
    (hc : c.rest = '<' :: x :: r) : ¬ (opened (openingParts tags)).MatchesAt c := by
  rintro ⟨d, hd⟩
  obtain ⟨ho, hrest⟩ := opening_sound ht (m := ⟨c, d.place, d.notes⟩) hd
  have hword := isWord_name ht ho.name
  obtain ⟨tag, htag, hn⟩ := ho.name
  generalize Match.group _ 1 = name at hrest hword hn
  cases name with
  | nil => exact (ht.names tag htag).ne_nil hn.symm
  | cons y name =>
    obtain ⟨rfl, -⟩ : x = y ∧ _ := by simpa [hc] using hrest
    exact absurd (hword x List.mem_cons_self) (by simp [hx])

theorem not_matches_closing (ht : Listed tags) {x : Char} (hx : x ≠ '/')
    (hc : c.rest = '<' :: x :: r) : ¬ (opened (closingParts tags)).MatchesAt c := by
  rintro ⟨d, hd⟩
  obtain ⟨v, hv, hrest, -⟩ := (spells_closing ht).sound hd
  obtain ⟨name, blanks, -, -, rfl⟩ := mem_closings.1 hv
  simp only [hc, List.cons_append, List.cons.injEq] at hrest
  exact hx hrest.2.1

theorem closing_eq_written (ht : Listed tags) (hh : h.Plain) {v : Text} (hv : v ∈ closings tags)
    (heq : v ++ s = h.writeEnd ++ r) : String.ofList h.tag ∈ tags ∧ v = h.writeEnd := by
  obtain ⟨name, blanks, hn, hb, rfl⟩ := mem_closings.1 hv
  have hrest : name ++ (blanks ++ '>' :: s) = h.tag ++ '>' :: r := by
    simpa [Head.writeEnd] using heq
  have hstop : (blanks ++ '>' :: s).head?.any isWord = false := by
    cases blanks with
    | nil => rfl
    | cons x blanks => exact (has_blank (hb x List.mem_cons_self)).2
  obtain ⟨rfl, hrest⟩ := append_stop_inj (isWord_name ht hn) hh.isWord hstop rfl hrest
  refine ⟨mem_tags_of_fold hh hn, ?_⟩
  cases blanks with
  | nil => simp [Head.writeEnd]
  | cons x blanks =>
    obtain ⟨rfl, -⟩ : x = '>' ∧ _ := by simpa using hrest
    exact absurd rfl (has_blank (hb _ List.mem_cons_self)).1.2

private theorem Head.Plain.write_eq (hh : h.Plain) : ∃ x t, h.write = '<' :: x :: t ∧ x ≠ '/' := by
  rcases hn : h.tag with - | ⟨x, t⟩
  · rcases ha : h.attributes with - | ⟨a, as⟩
    · exact ⟨'>', [], by simp [Head.write, hn, ha, Attributes.write], by decide⟩
    · exact ⟨' ', _, by simp [Head.write, hn, ha, Attributes.write]; rfl, by decide⟩
  · refine ⟨x, t ++ Attributes.write h.attributes ++ ['>'], by simp [Head.write, hn], ?_⟩
    rintro rfl
    exact absurd (hh.isWord '/' (by simp [hn])) (by decide)

end tags

theorem Forbidden.span_def (style : String → String) (m : Match) :
    span style m = "<span".toList ++ Style.withBase (m.group 2) (style (Tags.nameOf m)).toList ++
      if (m.group 3).isEmpty then ['>'] else [' ', '/', '>'] := rfl

/-- Names of elements that can be turned into spans, with a style for each. -/
structure Convertible (tags : List String) (style : String → String) : Prop
    extends Tags.Listed tags where
  ordinary : ∀ tag ∈ tags, tag.toList ∉ voidTags ∧ tag.toList ∉ rawTags
  styles : ∀ tag ∈ tags, IsQuotable (style tag).toList

namespace Convertible
open Tags
variable {tags : List String} {style : String → String} {h : Head} {f : Forest}

theorem change (hs : Convertible tags style) : Head.Change (Head.toSpan tags style) := by
  have hkeep (h : Head) (hh : h.tag ∈ voidTags ∨ h.tag ∈ rawTags) : h.toSpan tags style = h := by
    refine if_neg fun hmem => ?_
    have hspecial := hs.ordinary _ hmem
    rw [String.toList_ofList] at hspecial
    exact hh.elim hspecial.1 hspecial.2
  refine ⟨fun h hv => hkeep h (.inl hv), fun h hr => hkeep h (.inr hr), fun h hv hr => ?_⟩
  rw [Head.toSpan]
  split
  · dsimp only
    decide
  · exact ⟨hv, hr⟩

theorem plain_toSpan (hs : Convertible tags style) (hh : h.Plain) :
    (h.toSpan tags style).Plain := by
  rw [Head.toSpan]
  split
  · rename_i hmem
    exact ⟨by simp [isLower], restyled_names hh.names, restyled_distinct hh.distinct,
      restyled_values hh.values (hs.styles _ hmem)⟩
  · exact hh

private theorem canonical_toSpan (hs : Convertible tags style) (hc : h.Canonical) (hh : h.Plain) :
    (h.toSpan tags style).Canonical := by
  have hplain := hs.plain_toSpan hh
  refine ⟨?_, hplain.names, hplain.distinct, fun a ha => (hplain.values a ha).not_mem.1⟩
  rw [Head.toSpan]
  split
  · dsimp only
    decide
  · exact hc.tag

private theorem rewrites_write (hs : Convertible tags style) (hh : h.Plain) :
    Rewrites (opened (openingParts tags)) (span style) h.write (h.toSpan tags style).write := by
  have hsound {c : Cursor} {d : Trail} {r : Text} (hc : c.rest = h.write ++ r)
      (hd : (opened (openingParts tags)).Reads ⟨c, []⟩ d) :
      let m : Match := ⟨c, d.place, d.notes⟩
      String.ofList h.tag ∈ tags ∧ m.group 1 = h.tag ∧
        m.group 2 = Attributes.write h.attributes ∧ m.group 3 = [] ∧ d.place.rest = r := by
    obtain ⟨ho, hrest⟩ := opening_sound hs.toListed (m := ⟨c, d.place, d.notes⟩) hd
    obtain ⟨hname, hbody, hslash, hr⟩ := ho.eq_written hs.toListed hh (hrest.symm.trans hc)
    exact ⟨mem_tags_of_fold hh (hname ▸ ho.name), hname, hbody, hslash, hr⟩
  by_cases hmem : String.ofList h.tag ∈ tags
  · refine .whole (fun c r hc => ?_) fun c r d hc hd => ?_
    · have ho : IsOpening tags h.tag (Attributes.write h.attributes) [] := by
        refine ⟨⟨_, hmem, by rw [hh.fold_tag, String.toList_ofList]⟩, ?_, ?_, .inl rfl⟩
        · cases h.attributes <;> simp [Attributes.write]
          decide
        · intro x hx
          have hfree := hh.unbracketed.2
          exact ⟨by rintro rfl; exact hfree.1 hx, by rintro rfl; exact hfree.2 hx⟩
      have hc : c.rest = '<' :: (h.tag ++ (Attributes.write h.attributes ++ ([] ++ '>' :: r))) := by
        simpa [Head.write] using hc
      exact opening_complete hs.toListed ho hc
    · obtain ⟨-, hname, hbody, hslash, hr⟩ := hsound hc hd
      refine ⟨hd.reaches.eq_advance (by rw [hc, hr]), ?_⟩
      rw [span_def, nameOf, hname, hbody, hslash, hh.lower_tag, Head.toSpan, if_pos hmem,
        Style.withBase_write hh.names hh.distinct hh.values (hs.styles _ hmem)]
      rfl
  · rw [Head.toSpan, if_neg hmem]
    refine rewrites_unmatched (t := h.tag ++ Attributes.write h.attributes ++ ['>']) ?_ ?_
    · obtain ⟨⟨htag, -⟩, ⟨hattrs, -⟩⟩ := hh.unbracketed
      simp [htag, hattrs]
    · rintro c r hc ⟨d, hd⟩
      exact hmem (hsound hc hd).1

private theorem rewrites_writeEnd (hs : Convertible tags style) (hh : h.Plain) :
    Rewrites (opened (closingParts tags)) (fun _ => "</span>".toList) h.writeEnd
      (h.toSpan tags style).writeEnd := by
  by_cases hmem : String.ofList h.tag ∈ tags
  · have hclosing : h.writeEnd ∈ closings tags := by
      refine mem_closings.2 ⟨h.tag, [], ⟨_, hmem, ?_⟩, nofun, by simp [Head.writeEnd]⟩
      rw [hh.fold_tag, String.toList_ofList]
    refine .whole (fun c r hc => ?_) fun c r d hc hd => ?_
    · obtain ⟨notes, hm⟩ := (spells_closing hs.toListed).complete (t := ⟨c, []⟩) hclosing hc
      exact ⟨_, hm⟩
    · obtain ⟨v, hv, hrest, hplace⟩ := (spells_closing hs.toListed).sound hd
      obtain ⟨-, rfl⟩ := closing_eq_written hs.toListed hh hv (hrest.symm.trans hc)
      exact ⟨hplace, by rw [Head.toSpan, if_pos hmem]; rfl⟩
  · rw [Head.toSpan, if_neg hmem]
    refine rewrites_unmatched (t := '/' :: h.tag ++ ['>']) (by simp [hh.unbracketed.1.1]) ?_
    rintro c r hc ⟨d, hd⟩
    obtain ⟨v, hv, hrest, -⟩ := (spells_closing hs.toListed).sound hd
    exact hmem (closing_eq_written hs.toListed hh hv (hrest.symm.trans hc)).1

private theorem openingPass (hs : Convertible tags style) :
    TagPass (openingParts tags) (span style) Head.write (fun h => (h.toSpan tags style).write)
      Head.writeEnd Head.writeEnd where
  opening _ hh := hs.rewrites_write hh
  closing h hh := rewrites_unmatched (t := '/' :: h.tag ++ ['>']) (by simp [hh.unbracketed.1.1])
    fun _ _ hc => not_matches_opening hs.toListed (by decide) hc
  comment _ _ hd := not_matches_opening hs.toListed (by decide) hd

private theorem closingPass (hs : Convertible tags style) :
    TagPass (closingParts tags) (fun _ => "</span>".toList)
      (fun h => (h.toSpan tags style).write) (fun h => (h.toSpan tags style).write)
      Head.writeEnd (fun h => (h.toSpan tags style).writeEnd) where
  opening h hh := by
    have hh := hs.plain_toSpan hh
    obtain ⟨⟨htag, -⟩, ⟨hattrs, -⟩⟩ := hh.unbracketed
    obtain ⟨x, t, hw, hx⟩ := hh.write_eq
    have ht : '<' ∉ x :: t := by
      have hbody : x :: t = (h.toSpan tags style).tag ++
          Attributes.write (h.toSpan tags style).attributes ++ ['>'] :=
        (List.cons.inj hw).2.symm
      simp [hbody, htag, hattrs]
    rw [hw]
    exact rewrites_unmatched ht fun _ _ hc => not_matches_closing hs.toListed hx hc
  closing _ hh := hs.rewrites_writeEnd hh
  comment _ _ hd := not_matches_closing hs.toListed (by decide) hd

/-- On the text of a plain forest, both passes together turn the elements into spans. -/
theorem eval_toSpans (hs : Convertible tags style) (hf : f.Plain) (settings : Settings)
    (ix : Index) :
    (Forbidden.toSpans tags style ⟨f.write, settings⟩).eval ix =
      .ok (f.toSpans tags style).write := by
  obtain ⟨p, hp, hopening⟩ := eval_askWith (read_opening hs.toListed) (ordered_opening tags) ix
  obtain ⟨q, hq, hclosing⟩ := eval_askWith (read_closing hs.toListed) (ordered_closing tags) ix
  have hp := (hs.openingPass.rewrites_forest f hf).replace_eq hp (readsSome_opened _)
  have hq := (hs.closingPass.rewrites_forest f hf).replace_eq hq (readsSome_opened _)
  rw [← Forest.write_eq_writeBy] at hp
  rw [Forest.toSpans, Forest.write_mapHeads hs.change, ← hq, ← hp]
  exact (hopening _).trans (hclosing _)

end Convertible

namespace Forbidden

/-- The rules that turn elements into spans, with the names of these and the style of each name. -/
def conversions : List (Rule × List String × (String → String)) :=
  [(noHeadingTags, Tags.headings, headingStyle),
    (noParagraphTags, ["p"], fun _ => "display:block;margin:0 0 16px 0;"),
    (noBlockTags, Tags.blocks, fun _ => "display:block;")]

section rules
variable {r : Rule} {tags : List String} {style : String → String}

/-- The style of any name can stand in quotes. -/
theorem isQuotable_of_mem (hr : (r, tags, style) ∈ conversions) (name : String) :
    IsQuotable (style name).toList := by
  simp only [conversions, List.mem_cons, Prod.mk.injEq, List.not_mem_nil, or_false] at hr
  rcases hr with ⟨-, -, rfl⟩ | ⟨-, -, rfl⟩ | ⟨-, -, rfl⟩
  · unfold headingStyle
    split_ifs <;> (rw [String.toList_ofList]; decide +kernel)
  all_goals
    beta_reduce
    rw [String.toList_ofList]
    decide +kernel

theorem convertible_of_mem (hr : (r, tags, style) ∈ conversions) :
    r.fix = some (toSpans tags style) ∧ Convertible tags style := by
  have hstyle := fun tag (_ : tag ∈ tags) => isQuotable_of_mem hr tag
  simp only [conversions, List.mem_cons, Prod.mk.injEq, List.not_mem_nil, or_false] at hr
  rcases hr with ⟨rfl, rfl, rfl⟩ | ⟨rfl, rfl, rfl⟩ | ⟨rfl, rfl, rfl⟩
  all_goals exact ⟨rfl, Tags.listed_of_mem (by simp), by decide +kernel, hstyle⟩

theorem eval_repaired (hr : (r, tags, style) ∈ conversions) {f : Forest} (hf : f.Plain)
    (settings : Settings) (ix : Index) :
    (r.repaired ⟨f.write, settings⟩).eval ix = .ok (f.toSpans tags style).write := by
  obtain ⟨hfix, hs⟩ := convertible_of_mem hr
  rw [Rule.repaired, hfix]
  exact hs.eval_toSpans hf settings ix

end rules

/-- On the text of a canonical forest that is plain, a rule that turns elements into spans gives the
text of the forest with its elements turned into spans. That is the forest which is read from it. -/
theorem read_toSpans {r : Rule} {tags : List String} {style : String → String}
    (hr : (r, tags, style) ∈ conversions) {f : Forest} (hf : f.Plain) (hc : f.Canonical)
    (settings : Settings) (ix : Index) :
    (r.repaired ⟨f.write, settings⟩).eval ix = .ok (f.toSpans tags style).write ∧
      ∀ l, (Document.read l (f.toSpans tags style).write).stats.Unmet →
        Forest.unplaced (Document.read l (f.toSpans tags style).write).nodes =
          (f.toSpans tags style).closedUp.unplaced := by
  obtain ⟨-, hs⟩ := convertible_of_mem hr
  have hcanonical : (f.toSpans tags style).Canonical :=
    hc.mapHeads hf hs.change fun h => hs.canonical_toSpan
  exact ⟨eval_repaired hr hf settings ix, fun l hu => hcanonical.read_unmet hu⟩

/-- A block in another, under a name that starts like one, with a style that the base style has to
go under. -/
theorem read_toSpans_nested :
    let p : Position := {}
    let f : Forest :=
      [.element ⟨"divide".toList, [("class".toList, "div".toList)], p, p, true⟩
        [.element ⟨"div".toList, [("style".toList, "Display:none; top:1px".toList),
            ("id".toList, "a/".toList)], p, p, true⟩
          [.text "1 > 0".toList p, .element ⟨"br".toList, [], p, p, true⟩ [],
            .element ⟨"nav".toList, [], p, p, true⟩ []],
        .comment "/div".toList p, .element ⟨"style".toList, [], p, p, true⟩ [.text "nav".toList p]]]
    let out := ("<divide class=\"div\"><span id=\"a/\" style=\"display:none;top:1px;\">1 > 0<br>" ++
      "<span style=\"display:block;\"></span></span><!--/div--><style>nav</style></divide>").toList
    (noBlockTags.repaired ⟨f.write, {}⟩).eval (.new [] 1) = .ok out ∧
      Forest.unplaced (Document.read {} out).nodes =
        (f.toSpans Tags.blocks fun _ => "display:block;").closedUp.unplaced := by
  intro p f out
  have hspelled : out = _ := String.toList_append
  rw [String.toList_ofList, String.toList_ofList] at hspelled
  have hmem : (noBlockTags, Tags.blocks, fun _ => "display:block;") ∈ conversions := by
    simp [conversions]
  have hcanonical : f.Canonical := by
    refine .element (by decide +kernel) (by decide +kernel) (by decide +kernel) ?_ .nil
    refine .element (by decide +kernel) (by decide +kernel) (by decide +kernel) ?_ ?_
    · refine .text (by decide +kernel) (by decide +kernel) rfl ?_
      refine .void (by decide +kernel) (by decide +kernel) ?_
      exact .element (by decide +kernel) (by decide +kernel) (by decide +kernel) .nil .nil
    · refine .comment (cut?_eq_none_iff.1 (by decide +kernel)) ?_
      refine .raw (by decide +kernel) (by decide +kernel) ?_ .nil
      exact .text (by decide +kernel) (cut?_eq_none_iff.1 (by decide +kernel))
  have hplain : f.Plain := by decide +kernel
  have hout : (f.toSpans Tags.blocks fun _ => "display:block;").write = out := by
    rw [hspelled]
    decide +kernel
  obtain ⟨heval, hread⟩ := read_toSpans hmem hplain hcanonical {} (.new [] 1)
  rw [hout] at heval hread
  exact ⟨heval, hread {} (by rw [hspelled]; decide +kernel)⟩

/-- A name that starts with a digit is not read as a name, and an empty raw text is not read at
all. -/
theorem read_toSpans_numbered :
    let p : Position := {}
    let numbered : Forest :=
      [.element ⟨"p".toList, [], p, p, true⟩
        [.element ⟨"3d".toList, [], p, p, true⟩ [.text "x".toList p]]]
    let empty : Forest := [.element ⟨"script".toList, [], p, p, true⟩ [.text [] p]]
    let style : String → String := fun _ => "display:block;margin:0 0 16px 0;"
    (noParagraphTags, ["p"], style) ∈ conversions ∧
      ∀ f ∈ [numbered, empty], f.Plain ∧
        ∃ out, (noParagraphTags.repaired ⟨f.write, {}⟩).eval (.new [] 1) = .ok out ∧
          (Document.read {} out).stats.Unmet ∧
          Forest.unplaced (Document.read {} out).nodes ≠
            (f.toSpans ["p"] style).closedUp.unplaced := by
  intro p numbered empty style
  have hmem : (noParagraphTags, ["p"], style) ∈ conversions := by simp [conversions, style]
  refine ⟨hmem, List.forall_mem_cons.2 ⟨?_, List.forall_mem_singleton.2 ?_⟩⟩
  · have hplain : numbered.Plain := by decide +kernel
    refine ⟨hplain, _, eval_repaired hmem hplain _ _, by decide +kernel, fun h => ?_⟩
    exact absurd (congrArg (·.preorder.length) h) (by decide +kernel)
  · have hplain : empty.Plain := by decide +kernel
    refine ⟨hplain, _, eval_repaired hmem hplain _ _, by decide +kernel, fun h => ?_⟩
    exact absurd (congrArg (·.preorder.length) h) (by decide +kernel)

end Forbidden
end MailMarkup
