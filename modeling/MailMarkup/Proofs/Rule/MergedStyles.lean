import MailMarkup.Proofs.Document.Declarations
import MailMarkup.Proofs.Rule.RewrittenTags
import MailMarkup.Rule.DuplicateStyle

/-!
# Styles merged

The styles of a tag are merged into one that sets each property once. When that is rendered, quotes
may have to be escaped, and the escapes end with a semicolon, at which the check cuts it again: the
pieces may set a property twice that the merged style sets once. This needs a merged style with both
kinds of quotes. It does not happen again when the text that results is repaired, since no double
quotes are left in the styles that were escaped.
-/
namespace MailMarkup.DuplicateStyle
open Text Pattern Tags

section attributes
variable {as : List Attribute} {ds : List Declaration} {seen : List Text} {v : Text}

/-- The declarations in all styles of a tag. -/
def declarations (as : List Attribute) : List Declaration :=
  (styles as).flatMap fun a => Style.parse (a.value.getD [])

/-- The style that takes the place of all styles of a tag. -/
def merged (as : List Attribute) : Text := Style.render (Style.dedupe (declarations as))

/-- The attributes of a tag after the repair. -/
def resolved (as : List Attribute) : List Attribute :=
  if (problem? as).isSome then (withStyle (merged as) as).map Attribute.rendered else as

/-- What the check reads in the merged style after it is rendered. -/
def rereads (as : List Attribute) : List Declaration := Style.parse (Attribute.escaped (merged as))

/-- A merged style with both kinds of quotes is escaped. -/
def IsEscaped (as : List Attribute) : Prop := '"' ∈ merged as ∧ '\'' ∈ merged as

private theorem repeated?_eq_none : repeated? seen ds = none ↔
    (ds.map Prod.fst).Nodup ∧ ∀ d ∈ ds, d.1 ∉ seen := by
  induction ds generalizing seen with
  | nil => exact ⟨fun _ => ⟨.nil, nofun⟩, fun _ => rfl⟩
  | cons d ds ih =>
    have hmem : d.1 ∉ ds.map Prod.fst ↔ ∀ e ∈ ds, e.1 ≠ d.1 := by
      rw [List.mem_map]
      simp only [not_exists, not_and, Ne]
    rw [repeated?]
    split
    · rename_i h
      rw [List.contains_iff_mem] at h
      exact iff_of_false nofun fun hno => hno.2 d List.mem_cons_self h
    · rename_i h
      rw [List.contains_iff_mem] at h
      rw [ih, List.map_cons, List.nodup_cons, hmem, List.forall_mem_cons]
      simp only [List.mem_cons, not_or]
      exact ⟨fun ⟨hnd, hno⟩ => ⟨⟨fun e he => (hno e he).1, hnd⟩, h, fun e he => (hno e he).2⟩,
        fun ⟨⟨hne, hnd⟩, _, hno⟩ => ⟨hnd, fun e he => ⟨hne e he, hno e he⟩⟩⟩

private theorem isProperty_declarations (as : List Attribute) :
    ∀ d ∈ declarations as, Style.IsProperty d.1 ∧ Style.IsValue d.2 := by
  intro d hd
  obtain ⟨a, -, hd⟩ := List.mem_flatMap.1 hd
  exact Style.isProperty_parse _ d hd

/-- Without escapes the merged style is read as it was merged. -/
theorem repeated?_rereads (h : ¬ IsEscaped as) : repeated? [] (rereads as) = none := by
  rw [rereads, Attribute.escaped_eq h, merged,
    Style.parse_render (Style.forall_dedupe (isProperty_declarations as)), repeated?_eq_none]
  exact ⟨Style.nodup_dedupe _, fun _ _ => List.not_mem_nil⟩

private theorem is_style_of (v : Text) :
    (Attribute.of Style.attributeName v).is Style.attributeName = true := beq_self_eq_true _

private theorem styles_cons_of_is {a : Attribute} (h : a.is Style.attributeName = true) :
    styles (a :: as) = a :: styles as := List.filter_cons_of_pos h

private theorem styles_cons_of_not {a : Attribute} (h : ¬ a.is Style.attributeName = true) :
    styles (a :: as) = styles as := List.filter_cons_of_neg h

private theorem styles_withStyle (h : styles as ≠ []) :
    styles (withStyle v as) = [.of Style.attributeName v] := by
  induction as with
  | nil => exact absurd rfl h
  | cons a as ih =>
    rw [withStyle]
    split
    · have hnone : styles (as.filter (!·.is Style.attributeName)) = [] := by
        rw [styles, List.filter_filter]
        simp
      rw [styles_cons_of_is (is_style_of v), hnone]
    · rename_i hno
      rw [styles_cons_of_not hno] at h ⊢
      exact ih h

private theorem styles_rendered (as : List Attribute) :
    styles (as.map Attribute.rendered) = (styles as).map Attribute.rendered := by
  rw [styles, List.filter_map]
  exact congrArg _ (List.filter_congr fun a _ => a.is_rendered _)

private theorem styles_ne_nil (h : problem? as ≠ none) : styles as ≠ [] := by
  intro hnil
  rw [problem?, hnil] at h
  exact h rfl

theorem styles_resolved (h : problem? as ≠ none) :
    styles (resolved as) = [(Attribute.of Style.attributeName (merged as)).rendered] := by
  rw [resolved, if_pos (Option.isSome_iff_ne_none.2 h), styles_rendered,
    styles_withStyle (styles_ne_nil h)]
  rfl

theorem resolved_eq_self (h : problem? as = none) : resolved as = as := by
  rw [resolved, h]
  rfl

private theorem length_styles_resolved (as : List Attribute) :
    (styles (resolved as)).length ≤ 1 := by
  by_cases h : problem? as = none
  · rw [resolved_eq_self h]
    unfold problem? at h
    split at h
    · simp [*]
    · simp [*]
    · cases h
  · rw [styles_resolved h]
    rfl

private theorem declarations_resolved (h : problem? as ≠ none) :
    declarations (resolved as) = rereads as := by
  rw [declarations, styles_resolved h, List.flatMap_singleton]
  rfl

private theorem problem?_resolved (h : problem? as ≠ none) :
    problem? (resolved as) = (repeated? [] (rereads as)).map .property := by
  rw [problem?, styles_resolved h]
  rfl

theorem problem?_resolved_eq_none : problem? (resolved as) = none ↔
    (problem? as ≠ none → repeated? [] (rereads as) = none) := by
  by_cases h : problem? as = none
  · simp [resolved_eq_self h, h]
  · simp [problem?_resolved h, h]

/-- No double quotes are left in a style that was escaped. -/
theorem not_isEscaped_resolved (h : problem? as ≠ none) (he : IsEscaped as) :
    ¬ IsEscaped (resolved as) := by
  have hquote : Attribute.quoteFor (merged as) = '"' := by
    have hsingle : (merged as).any (· == '\'') = true :=
      List.any_eq_true.2 ⟨_, he.2, beq_self_eq_true _⟩
    rw [Attribute.quoteFor, hsingle, Bool.not_true, Bool.and_false, if_neg Bool.false_ne_true]
  have hfree : ∀ x ∈ Attribute.escaped (merged as), x ∉ ['"'] := by
    intro x hx hmem
    rw [← List.mem_singleton.1 hmem] at hquote
    exact Attribute.quoteFor_not_mem _ (hquote ▸ hx)
  have hmark := Style.not_mem_lowerChar ['"'] (by decide)
  have hmerged : ∀ x ∈ merged (resolved as), x ∉ ['"'] := by
    rw [merged, declarations_resolved h]
    exact Style.forall_render (by decide) (by decide)
      (Style.made_dedupe (Style.made_parse hmark hfree))
  exact fun hboth => hmerged _ hboth.1 (List.mem_singleton_self _)

private theorem problem?_resolved_resolved (as : List Attribute) :
    problem? (resolved (resolved as)) = none := by
  rw [problem?_resolved_eq_none]
  intro hagain
  by_cases h : problem? as = none
  · exact absurd h (resolved_eq_self h ▸ hagain)
  · have he : IsEscaped as := by
      by_contra he
      exact hagain (problem?_resolved_eq_none.2 fun _ => repeated?_rereads he)
    exact repeated?_rereads (not_isEscaped_resolved h he)

end attributes
section task
variable {m : Match} {t : Text}

private theorem mem_withStyle {a : Attribute} {v : Text} {as : List Attribute}
    (h : a ∈ withStyle v as) : a ∈ as ∨ a = .of Style.attributeName v := by
  induction as with
  | nil => cases h
  | cons b as ih =>
    rw [withStyle] at h
    split at h
    · rcases List.mem_cons.1 h with h | h
      · exact .inr h
      · exact .inl (List.mem_cons_of_mem b (List.mem_filter.1 h).1)
    · rcases List.mem_cons.1 h with rfl | h
      · exact .inl List.mem_cons_self
      · exact (ih h).imp_left (List.mem_cons_of_mem b)

private theorem unbracketed_merged (h : ∀ x ∈ t, x ≠ '<' ∧ x ≠ '>') :
    ∀ x ∈ merged (Attribute.scan t), x ≠ '<' ∧ x ≠ '>' := by
  refine Style.forall_render (by decide) (by decide) (Style.made_dedupe fun d hd => ?_)
  obtain ⟨a, ha, hd⟩ := List.mem_flatMap.1 hd
  refine Style.made_parse Style.lowerChar_unbracketed (fun x hx => h x ?_) d hd
  have hfrom := Attribute.isFrom_scan (List.mem_filter.1 ha).1
  cases hv : a.value with
  | none =>
    rw [hv] at hx
    cases hx
  | some v =>
    rw [hv] at hx
    exact hfrom.value v hv hx

/-- What stands in the place of a tag. -/
def repaired (m : Match) : Text := (repair? m).getD m.text

theorem repaired_of_none (h : problem? (attributesOf m) = none) : repaired m = m.text := by
  rw [repaired, repair?, h]
  rfl

private theorem repaired_of_ne_none (h : problem? (attributesOf m) ≠ none) : repaired m =
    withAttributes m (withStyle (merged (attributesOf m)) (attributesOf m)) := by
  obtain ⟨problem, hp⟩ := Option.ne_none_iff_exists'.1 h
  rw [repaired, repair?, hp]
  rfl

private theorem becomes_resolved (h : IsParted (m.group 1) (m.group 2) (m.group 3))
    (ht : m.text = '<' :: (m.group 1 ++ (m.group 2 ++ (m.group 3 ++ ['>'])))) :
    Becomes (· = resolved (attributesOf m)) repaired m := by
  by_cases hp : problem? (attributesOf m) = none
  · exact ⟨m.group 2, h, (resolved_eq_self hp).symm, (repaired_of_none hp).trans ht⟩
  · have hfrom : ∀ a ∈ withStyle (merged (attributesOf m)) (attributesOf m),
        a.IsFrom (m.group 2 ++ (Style.attributeName ++ merged (attributesOf m))) := by
      intro a ha
      rcases mem_withStyle ha with ha | rfl
      · exact (Attribute.isFrom_scan ha).mono (List.subset_append_left _ _)
      · exact (Style.isFrom_of _).mono (List.subset_append_right _ _)
    obtain ⟨body, hparted, hscan, hbody⟩ :=
      h.withAttributes hfrom (Style.unbracketed_of h.body (unbracketed_merged h.body))
    refine ⟨body, hparted, ?_, (repaired_of_ne_none hp).trans hbody⟩
    rw [hscan, resolved, if_pos (Option.isSome_iff_ne_none.2 hp)]

end task

/-- The repair always gives a text in which no tag has two styles. The check reports nothing there
exactly if no merged style, as it is escaped and cut again, sets a property twice; so none does if
no merged style has both kinds of quotes. The repair leaves a text as it is exactly if there is
nothing to report on it, and after two repairs there is nothing to report. -/
theorem fix_merges (s : Subject) (info : RuleInfo) (ix : Index) :
    ∃ out, (fix s).eval ix = .ok out ∧
      (∀ as, Carries out as → (styles as).length ≤ 1) ∧
      ((check { s with html := out } info).eval ix = .ok [] ↔
        ∀ as, Carries s.html as → problem? as ≠ none → repeated? [] (rereads as) = none) ∧
      ((∀ as, Carries s.html as → ¬ IsEscaped as) →
        (check { s with html := out } info).eval ix = .ok []) ∧
      (out = s.html ↔ (check s info).eval ix = .ok []) ∧
      ∃ again, (fix { s with html := out }).eval ix = .ok again ∧
        (check { s with html := again } info).eval ix = .ok [] := by
  obtain ⟨p, hp, hc⟩ := Forbidden.exists_compile read_anyOpen ordered_anyExpr
  let result (t : Text) : Text := p.replace repaired t
  have hfix (t : Text) : (fix { s with html := t }).eval ix = .ok (result t) :=
    Forbidden.eval_compiled hc _ ix
  have hcheck (t : Text) : (check { s with html := t } info).eval ix = .ok [] ↔
      ∀ as, Carries t as → problem? as = none := by
    have heval : (check { s with html := t } info).eval ix =
        .ok ((p.occurrences t).filterMap fun m => (problem? (attributesOf m)).map fun problem =>
          finding info m (problem.message (nameOf m))
            "Merge declarations into a single style attribute") := Forbidden.eval_compiled hc _ ix
    rw [heval, Except.ok.injEq, List.filterMap_eq_nil_iff,
      ← forall_occurrences_iff hp (P := (problem? · = none))]
    exact forall₂_congr fun m _ => Option.map_eq_none_iff
  have hout {P : List Attribute → Prop} (t : Text) :
      (∀ as, Carries (result t) as → P as) ↔ ∀ as, Carries t as → P (resolved as) :=
    forall_carries_replace_iff hp fun m hm =>
      becomes_resolved (parted_of_occurrence hp hm).1 (parted_of_occurrence hp hm).2
  have hagain : (check { s with html := result (result s.html) } info).eval ix = .ok [] := by
    rw [hcheck, hout, hout]
    exact fun as _ => problem?_resolved_resolved as
  have hexact : (check { s with html := result s.html } info).eval ix = .ok [] ↔
      ∀ as, Carries s.html as → problem? as ≠ none → repeated? [] (rereads as) = none := by
    rw [hcheck, hout]
    exact forall₂_congr fun as _ => problem?_resolved_eq_none
  refine ⟨result s.html, hfix s.html, (hout _).2 fun as _ => length_styles_resolved as, hexact,
    fun h => hexact.2 fun as has _ => repeated?_rereads (h as has), ?_, _, hfix _, hagain⟩
  constructor
  · intro heq
    rw [heq, heq] at hagain
    exact hagain
  · intro h
    have hclean := (forall_occurrences_iff hp).2 ((hcheck s.html).1 h)
    have hms := hp.occurrences_successive rfl s.html
    exact (replace_eq p repaired s.html).trans
      (rebuild_self hms fun m hm => repaired_of_none (hclean m hm))

/-- A style that is merged from both kinds of quotes is still reported. -/
theorem fix_merges_escaped :
    let html := "<i style=\"a:'\" style='b:\"a:y'>".toList
    ∃ out, (fix ⟨html, {}⟩).eval (.new [] 1) = .ok out ∧
      (check ⟨out, {}⟩ rule.info).eval (.new [] 1) ≠ .ok [] := by
  intro html
  obtain ⟨out, hfix, -, hexact, -⟩ := fix_merges ⟨html, {}⟩ rule.info (.new [] 1)
  have hname : ['i'] ∈ anyNames := ⟨'i', [], rfl, by decide, nofun⟩
  have hblank : isWord ' ' = false := by decide
  let style : Text := ['s', 't', 'y', 'l', 'e']
  let body : Text := ' ' :: (style ++ '=' :: '"' :: 'a' :: ':' :: '\'' :: '"' :: ' ' ::
    (style ++ ['=', '\'', 'b', ':', '"', 'a', ':', 'y', '\'']))
  have hparted : IsParted ['i'] body [] :=
    ⟨⟨hname, by simp [body, hblank], by simp [body, style], .inl rfl⟩, by simp [body, style]⟩
  have hscan : Attribute.scan body =
      [{ name := style, value := some ['a', ':', '\''], quote := some '"' },
        { name := style, value := some ['b', ':', '"', 'a', ':', 'y'], quote := some '\'' }] := by
    cbv
  have has : Carries html (Attribute.scan body) := (carries_cons hparted (t := [])).2 (.inl rfl)
  refine ⟨out, hfix, fun h => ?_⟩
  have hreads := hexact.1 h _ has
  rw [hscan] at hreads
  exact absurd (hreads (by decide)) (by decide)

end MailMarkup.DuplicateStyle
