import MailMarkup.Proofs.Document.AttributeTable
import MailMarkup.Proofs.Document.EditedReading
import MailMarkup.Proofs.Rule.MalformedAttributes
import MailMarkup.Proofs.Rule.TagEdits

/-!
# Malformed attributes repaired in a document

Quoting the attributes of a tag, and leaving out those that repeat a name, does not change what the
tag says. So a repaired text reads as the document that it was, as long as the pattern cuts each tag
that is written anew as the reader of documents does.
-/
namespace MailMarkup.Malformed
open Text Reader Pattern Tags

section table
variable {a : Attribute} {as kept : List Attribute}

private theorem foldl_see_distinct (kept as : List Attribute) :
    ((distinct kept as).map Attribute.entry).foldl Attribute.see [] =
      (as.map Attribute.entry).foldl Attribute.see
        ((kept.reverse.map Attribute.entry).foldl Attribute.see []) := by
  fun_induction distinct kept as with
  | case1 kept => rfl
  | case2 kept a as hrep ih =>
    rw [Bool.and_eq_true] at hrep
    obtain ⟨k, hk, hname⟩ := List.any_eq_true.1 hrep.2
    have hmem : a.entry.1 ∈
        ((kept.reverse.map Attribute.entry).foldl Attribute.see []).map Prod.fst := by
      refine Attribute.mem_names_foldl_see.2 (.inr (List.mem_map.2 ⟨k.entry, ?_, is_iff.1 hname⟩))
      exact List.mem_map_of_mem (List.mem_reverse.2 hk)
    rw [ih, List.map_cons, List.foldl_cons, Attribute.see_of_mem hmem]
  | case3 kept a as hrep ih =>
    rw [ih, List.reverse_cons, List.map_append, List.foldl_append, List.map_cons, List.foldl_cons]
    rfl

private theorem table_distinct (as : List Attribute) :
    Attribute.table (distinct [] as) = Attribute.table as := by
  rw [Attribute.table_eq, Attribute.table_eq, foldl_see_distinct]
  rfl

/-- No quote is left open, and no value has both kinds of quotes in it. -/
def Quotable (as : List Attribute) : Prop :=
  ∀ a ∈ as, a.unterminated = false ∧ ∀ v ∈ a.value, ¬ ('"' ∈ v ∧ '\'' ∈ v)

instance (as : List Attribute) : Decidable (Quotable as) :=
  inferInstanceAs (Decidable (∀ a ∈ as, _ ∧ _))

private theorem entry_rendered (h : ∀ v ∈ a.value, ¬ ('"' ∈ v ∧ '\'' ∈ v)) :
    a.rendered.entry = a.entry := by
  unfold Attribute.entry Attribute.rendered
  rw [lower_lower]
  cases hv : a.value with
  | none => rfl
  | some v => rw [Option.map_some, Attribute.escaped_eq (h v hv)]

private theorem table_rendered (h : Quotable as) :
    Attribute.table ((distinct [] as).map Attribute.rendered) = Attribute.table as := by
  have hentries : ((distinct [] as).map Attribute.rendered).map Attribute.entry =
      (distinct [] as).map Attribute.entry := by
    rw [List.map_map]
    refine List.map_congr_left fun a ha => entry_rendered (h a ?_).2
    exact (mem_of_mem_distinct ha).resolve_left nofun
  rw [Attribute.table, hentries, ← Attribute.table, table_distinct]

end table
section tag
variable {m : Match} {name body slash : Text}

theorem withAttributes_eq (m : Match) (as : List Attribute) : withAttributes m as =
    '<' :: (m.group 1 ++ ((Attribute.renderAll as ++ ending (m.group 3)) ++ ['>'])) := by
  unfold withAttributes ending
  split <;> simp

/-- The attribute text that is written for another one. -/
def quoted (body : Text) : Text := Attribute.renderAll (distinct [] (Attribute.scan body))

theorem isFrom_distinct (body : Text) : ∀ a ∈ distinct [] (Attribute.scan body), a.IsFrom body :=
  fun _ ha => Attribute.isFrom_scan ((mem_of_mem_distinct ha).resolve_left nofun)

theorem isFront_quoted (h : IsParted name body slash) : IsFront (quoted body) := by
  refine ⟨?_, Attribute.unbracketed_renderAll (isFrom_distinct body) h.body⟩
  rw [quoted]
  cases distinct [] (Attribute.scan body) with
  | nil => rfl
  | cons a as => exact (by decide : isTagChar ' ' = false)

theorem scan_quoted (body : Text) : Attribute.scan (quoted body) =
    (distinct [] (Attribute.scan body)).map Attribute.rendered :=
  Attribute.scan_renderAll_alone (isFrom_distinct body)

/-- A tag says the same with its attributes quoted. -/
theorem changes_quoted (h : IsParted name body slash) (ha : Aligned name body slash)
    (hq : Quotable (Attribute.scan (body ++ slash))) :
    Changes (fun _ as => as) name (body ++ slash) (quoted body ++ ending slash) := by
  refine changes_ending h.toIsTag ha h.settled (fun a ha => (hq a ha).1) (isFront_quoted h) ?_
    (Attribute.getLast?_renderAll (isFrom_distinct body)) ?_
  · rw [scan_quoted]
    exact List.forall_mem_map.2 fun a _ => Attribute.isComplete_rendered a
  · rw [ha.slash] at hq
    rw [scan_quoted, table_rendered hq]

end tag
section document
variable {opens : Text → Prop} {c : Cursor} {ms : List Match}

/-- The attributes of a tag stay what they are, in every tag. -/
abbrev quoting (opens : Text → Prop) : Editing where
  change _ as := as
  opens := opens
  edits t := t.head? = some '<'

private theorem edited_repaired (hms : Successive anyExpr c ms)
    (parts : ∀ m ∈ ms, IsParted (m.group 1) (m.group 2) (m.group 3) ∧
      m.text = '<' :: (m.group 1 ++ (m.group 2 ++ (m.group 3 ++ ['>']))))
    (quotable : ∀ t, opens t → Quotable (Attribute.scan (attributeText t)))
    (aligned : ∀ m ∈ ms, ¬ IsClean (attributesOf m) → Aligned (m.group 1) (m.group 2) (m.group 3)) :
    Edited (quoting opens) c.rest (rebuild repaired c ms) := by
  have stays (t : Text) : Stays (quoting opens) t :=
    Edited.stays_self (fun _ _ => rfl) (fun _ => id) fun ho a ha => (quotable t ho a ha).1
  refine hms.edited (fun k _ _ => stays k.rest) fun m hm r hr => ?_
  obtain ⟨hparted, htext⟩ := parts m hm
  have hstart := (hms.reads hm).text_eq.1
  cases hrep : repair? m with
  | none =>
    have hkeep := hparted.toIsTag.keep hparted.word hr (stays _)
    have hsplit (t : Text) : '<' :: (m.group 1 ++ (m.group 2 ++ (m.group 3 ++ ['>']))) ++ t =
        '<' :: (m.group 1 ++ (m.group 2 ++ (m.group 3 ++ '>' :: t))) := by simp
    rw [repaired, hrep, Option.getD_none, hstart, htext, hsplit, hsplit]
    exact hkeep
  | some u =>
    have hunclean : ¬ IsClean (attributesOf m) := fun h => by
      rw [repair?_eq_none.2 h] at hrep
      cases hrep
    have ha := aligned m hm hunclean
    have htag := hparted.startTag ha m.stop.rest
    have hsource : m.start.rest =
        '<' :: (m.group 1 ++ ((m.group 2 ++ m.group 3) ++ '>' :: m.stop.rest)) := by
      rw [hstart, htext]
      simp
    have htarget (w : Text) : '<' :: (m.group 1 ++ (w ++ ['>'])) ++ r =
        '<' :: (m.group 1 ++ (w ++ '>' :: r)) := by simp
    rw [repaired, hrep, Option.getD_some, repair?_eq_some hrep, withAttributes_eq, hsource, htarget]
    refine .tag htag ((isFront_quoted hparted).startTag ha r) rfl
      (fun ho => changes_quoted hparted ha ?_) hr
    have hquotable := quotable _ ho
    rwa [htag.parts.2] at hquotable

theorem exists_eval_fix : ∃ p : Pattern, p.Means anyExpr ∧
    ∀ s ix, (fix s).eval ix = .ok (p.replace repaired s.html) := by
  obtain ⟨p, hp, hc⟩ := Forbidden.exists_compile read_anyOpen ordered_anyExpr
  exact ⟨p, hp, fun s ix => Forbidden.eval_compiled hc _ ix⟩

end document

/-- Quoting attributes does not change the document. Up to its first bracket, the attribute text of
each element is to have its quotes closed, so that no value holds a bracket, and no value is to hold
both kinds of quotes; no bracket is to open in a comment, a script or a style. The pattern must cut
each tag that is written anew as the reader does: not at a mark in its name, not behind a letter
that only folds to one of ASCII, and not before a slash that ends a value without quotes. -/
theorem fix_keeps_document (s : Subject) (ix : Index) (l : Limits)
    (limits : (Document.read l s.html).stats.Unmet)
    (quiet : ∀ n ∈ Forest.family (Document.read l s.html).nodes, n.Quiet)
    (quotable : ∀ n ∈ Forest.family (Document.read l s.html).nodes, ∀ e ∈ n.element?,
      Quotable (Attribute.scan (attributeText (s.html.drop e.start.index))))
    (aligned : ∀ name body slash, IsParted name body slash →
      '<' :: (name ++ (body ++ (slash ++ ['>']))) <:+: s.html →
      ¬ IsClean (Attribute.scan body) → Aligned name body slash) :
    ∃ out, (fix s).eval ix = .ok out ∧
      ((Document.read l out).stats.Unmet →
        Forest.unplaced (Document.read l out).nodes =
          Forest.unplaced (Document.read l s.html).nodes) := by
  obtain ⟨p, hp, heval⟩ := exists_eval_fix
  have hms := hp.occurrences_successive rfl s.html
  refine ⟨_, heval s ix, fun limits' => ?_⟩
  rw [replace_eq] at limits' ⊢
  have hedited : Edited (quoting (Begins (Document.read l s.html).nodes s.html)) s.html
      (rebuild repaired (.start s.html) (p.occurrences s.html)) := by
    refine edited_repaired hms (fun m hm => parted_of_occurrence hp hm)
      (fun t ⟨n, hn, e, he, ht⟩ => ht ▸ quotable n hn e he) fun m hm hunclean => ?_
    obtain ⟨hparted, htext⟩ := parted_of_occurrence hp hm
    exact aligned _ _ _ hparted (htext ▸ hms.infix_text hm) hunclean
  rw [Document.read_edited hedited rfl quiet limits limits', Forest.changed_self]

section classes

private abbrev twoClasses : Text :=
  [' ', 'C', 'L', 'A', 'S', 'S', '=', 'x', ' ', 'c', 'l', 'a', 's', 's', '=', 'y']

private abbrev oneId : Text := [' ', 'i', 'd', '=', '"', 'z', '"']

private theorem scan_twoClasses : Attribute.scan twoClasses =
    [{ name := ['C', 'L', 'A', 'S', 'S'], value := some ['x'] },
      { name := ['c', 'l', 'a', 's', 's'], value := some ['y'] }] := by
  cbv

private theorem isClean_oneId : IsClean (Attribute.scan oneId) := by
  have hscan : Attribute.scan oneId =
      [{ name := ['i', 'd'], value := some ['z'], quote := some '"' }] := by cbv
  rw [hscan]
  exact ⟨List.forall_mem_singleton.2 rfl, List.pairwise_singleton _ _⟩

private theorem isParted_twoClasses : IsParted ['P'] twoClasses [] := by
  have hblank : isWord ' ' = false := by decide
  exact ⟨⟨⟨'P', [], rfl, by decide, List.forall_mem_nil _⟩, by simp [hblank], by simp, .inl rfl⟩,
    by simp⟩

private theorem isParted_oneId : IsParted ['b'] oneId [] := by
  have hblank : isWord ' ' = false := by decide
  exact ⟨⟨⟨'b', [], rfl, by decide, List.forall_mem_nil _⟩, by simp [hblank], by simp, .inl rfl⟩,
    by simp⟩

private theorem repaired_twoClasses :
    Rewrites anyExpr repaired ('<' :: (['P'] ++ (twoClasses ++ ['>'])))
      "<P class=\"x\">".toList := by
  refine anyNamePart.rewrites isParted_twoClasses.toIsTag (by decide) fun m h₁ h₂ h₃ _ => ?_
  have hrepair : repair? m =
      some (withAttributes m (distinct [] (Attribute.scan twoClasses))) := by
    rw [repair?, attributesOf, h₂, scan_twoClasses]
    exact if_pos (by decide)
  rw [repaired, hrepair, Option.getD_some, withAttributes_eq, h₁, h₃, scan_twoClasses]
  decide

private theorem repaired_oneId :
    Rewrites anyExpr repaired ('<' :: (['b'] ++ (oneId ++ ['>'])))
      ('<' :: (['b'] ++ (oneId ++ ['>']))) := by
  refine anyNamePart.rewrites isParted_oneId.toIsTag (by decide) fun m _ h₂ _ htext => ?_
  have hnone : repair? m = none :=
    repair?_eq_none.2 (by rw [attributesOf, h₂]; exact isClean_oneId)
  rw [repaired, hnone, Option.getD_none, htext]

/-- A bare value gets quotes, and an attribute that repeats a name is left out; a tag with quotes
stays as it is. -/
theorem fix_keeps_document_classes :
    let html := "<P CLASS=x class=y>hi<b id=\"z\">t</b></P>".toList
    let out := "<P class=\"x\">hi<b id=\"z\">t</b></P>".toList
    (fix ⟨html, {}⟩).eval (.new [] 1) = .ok out ∧
      Forest.unplaced (Document.read {} out).nodes =
        Forest.unplaced (Document.read {} html).nodes := by
  intro html out
  let close₁ : Text := ['<', '/', 'P', '>']
  let close₂ : Text := ['<', '/', 'b', '>']
  have hparts : html = '<' :: (['P'] ++ (twoClasses ++ ([] ++ '>' :: (['h', 'i'] ++
      '<' :: (['b'] ++ (oneId ++ ([] ++ '>' :: (['t'] ++ (close₂ ++ close₁))))))))) := by decide
  have hp := isParted_twoClasses
  have hb := isParted_oneId
  obtain ⟨out', heval, hread⟩ := fix_keeps_document ⟨html, {}⟩ (.new [] 1) {} (by decide +kernel)
    (by decide +kernel) (by decide +kernel) fun name b slash h hin hunclean => by
      have hin' : '<' :: (name ++ (b ++ (slash ++ ['>']))) <:+: _ := hparts ▸ hin
      rcases hp.toIsTag.eq_or_infix h.toIsTag hp.word h.word hp.settled h.settled hin' with
        ⟨rfl, rfl, rfl⟩ | hin
      · exact ⟨by decide, List.forall_mem_singleton.2 (by decide), by decide,
          by rw [List.append_nil]⟩
      rcases hb.toIsTag.eq_or_infix h.toIsTag hb.word h.word hb.settled h.settled
        (infix_of_infix_append (u := ['h', 'i']) (by decide) hin) with ⟨rfl, rfl, rfl⟩ | hin
      · exact absurd isClean_oneId hunclean
      have hne := anyNamePart.ne_nil name h.name
      have hin := infix_of_infix_append (u := ['t']) (by decide) hin
      have hin := infix_of_infix_append (u := ['b', '>']) (by decide)
        (infix_of_closing hne h.word hin)
      have hin := infix_of_infix_append (u := ['P', '>']) (t := []) (by decide)
        (infix_of_closing hne h.word hin)
      exact absurd (List.infix_nil.1 hin) (List.cons_ne_nil _ _)
  obtain ⟨p, hm, heval'⟩ := exists_eval_fix
  have hclosed (name : Text) (hn : '<' ∉ name) :
      Rewrites anyExpr repaired ('<' :: '/' :: name) ('<' :: '/' :: name) :=
    anyNamePart.rewrites_closing hn
  have hout : p.replace repaired html = out :=
    (repaired_twoClasses.append <| (rewrites_text (t := ['h', 'i']) (by decide)).append <|
      repaired_oneId.append <| (rewrites_text (t := ['t']) (by decide)).append <|
        (hclosed ['b', '>'] (by decide)).append (hclosed ['P', '>'] (by decide))).replace_eq hm rfl
  obtain rfl : out' = out := by
    have h := heval.symm.trans (heval' _ _)
    rw [hout] at h
    exact Except.ok.inj h
  exact ⟨heval, hread (by decide +kernel)⟩

end classes

end MailMarkup.Malformed
