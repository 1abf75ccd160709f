import MailMarkup.Proofs.Document.AttributeText
import MailMarkup.Proofs.Text.Split
import MailMarkup.Style

/-!
# Styles under written attributes

Attributes that are written in double quotes are scanned as they are, and setting a base style under
them gives the text of the other attributes and one style, which is merged from both. A merged style
holds no characters but those of both styles, in lower case or not, and the marks between
declarations.
-/
namespace MailMarkup
open Text

/-- A text that can stand in a value in double quotes, in a tag that is matched as a whole. -/
def IsQuotable (t : Text) : Prop := ∀ x ∈ t, x ∉ ['"', '<', '>']

instance (t : Text) : Decidable (IsQuotable t) := List.decidableBAll _ t

theorem IsQuotable.not_mem {t : Text} (h : IsQuotable t) : '"' ∉ t ∧ '<' ∉ t ∧ '>' ∉ t :=
  ⟨fun hx => h _ hx (by decide), fun hx => h _ hx (by decide), fun hx => h _ hx (by decide)⟩

namespace Style
section characters
variable {Q : Char → Prop} {base overrides t u : Text} {ds : List Declaration} {d : Declaration}

/-- All characters of a declaration have a property. -/
def Made (Q : Char → Prop) (d : Declaration) : Prop := (∀ x ∈ d.1, Q x) ∧ ∀ x ∈ d.2, Q x

theorem trim_subset (t : Text) : trim t ⊆ t := (trim_isInfix t).subset

private theorem made_declaration (hQ : ∀ x, Q x → Q (lowerChar x)) (h : ∀ x ∈ t, Q x)
    (hd : declaration? t = some d) : Made Q d := by
  unfold declaration? at hd
  split at hd
  · cases hd
  · rename_i p v hcut
    obtain ⟨rfl, -⟩ := cut?_eq_some_iff.1 hcut
    dsimp only at hd
    split at hd
    · cases hd
    · cases hd
      refine ⟨List.forall_mem_map.2 fun x hx => hQ x (h x ?_), fun x hx => h x ?_⟩
      · simp [trim_subset p hx]
      · simp [trim_subset v hx]

theorem made_parse (hQ : ∀ x, Q x → Q (lowerChar x)) (h : ∀ x ∈ t, Q x) :
    ∀ d ∈ parse t, Made Q d := by
  intro d hd
  obtain ⟨u, hu, hd⟩ := List.mem_filterMap.1 hd
  exact made_declaration hQ (fun x hx => h x (subset_of_mem_splitOn hu hx)) hd

private theorem forall_set {Q R : Text → Prop} (h : ∀ e ∈ ds, Q e.1 ∧ R e.2) (hd : Q d.1 ∧ R d.2) :
    ∀ e ∈ set ds d, Q e.1 ∧ R e.2 := by
  unfold set
  split
  · refine List.forall_mem_map.2 fun e he => ?_
    split
    · exact ⟨(h e he).1, hd.2⟩
    · exact h e he
  · exact List.forall_mem_append.2 ⟨h, List.forall_mem_singleton.2 hd⟩

theorem forall_dedupe {Q R : Text → Prop} (h : ∀ d ∈ ds, Q d.1 ∧ R d.2) :
    ∀ d ∈ dedupe ds, Q d.1 ∧ R d.2 := by
  have hfold (es : List Declaration) (he : ∀ e ∈ es, Q e.1 ∧ R e.2) :
      ∀ d ∈ ds.foldl set es, Q d.1 ∧ R d.2 := by
    induction ds generalizing es with
    | nil => exact he
    | cons d ds ih =>
      obtain ⟨hd, h⟩ := List.forall_mem_cons.1 h
      exact ih h _ (forall_set he hd)
  exact hfold [] nofun

theorem made_dedupe (h : ∀ d ∈ ds, Made Q d) : ∀ d ∈ dedupe ds, Made Q d :=
  forall_dedupe (Q := fun t => ∀ x ∈ t, Q x) (R := fun t => ∀ x ∈ t, Q x) h

theorem forall_render (hcolon : Q ':') (hend : Q ';') (h : ∀ d ∈ ds, Made Q d) :
    ∀ x ∈ render ds, Q x := by
  intro x hx
  obtain ⟨d, hd, hx⟩ := List.mem_flatMap.1 hx
  obtain ⟨h1, h2⟩ := h d hd
  simp only [List.mem_append, List.mem_singleton] at hx
  rcases hx with ((hx | rfl) | hx) | rfl
  · exact h1 x hx
  · exact hcolon
  · exact h2 x hx
  · exact hend

/-- A merged style is made of the characters of both styles, the letters in lower case, and of the
marks between declarations. -/
theorem forall_merge (hQ : ∀ x, Q x → Q (lowerChar x)) (hcolon : Q ':') (hend : Q ';')
    (hb : ∀ x ∈ base, Q x) (ho : ∀ x ∈ overrides, Q x) : ∀ x ∈ merge base overrides, Q x :=
  forall_render hcolon hend <|
    made_dedupe (List.forall_mem_append.2 ⟨made_parse hQ hb, made_parse hQ ho⟩)

/-- A mark is no letter, so it is not the lower case of another character. -/
theorem not_mem_lowerChar (marks : List Char) (hm : marks.all (!isLower ·)) (x : Char)
    (hx : x ∉ marks) : lowerChar x ∉ marks := by
  intro hmark
  have hmark' := hmark
  rw [lowerChar_eq_self (by simpa using List.all_eq_true.1 hm _ hmark')] at hmark
  exact hx hmark

private theorem isQuotable_merge (hb : IsQuotable base) (ho : IsQuotable overrides) :
    IsQuotable (merge base overrides) :=
  forall_merge (not_mem_lowerChar _ (by decide)) (by decide) (by decide) hb ho

private theorem forall_join {sep : Text} {ts : List Text} (hs : ∀ x ∈ sep, Q x)
    (h : ∀ t ∈ ts, ∀ x ∈ t, Q x) : ∀ x ∈ join sep ts, Q x := by
  intro x hx
  cases ts with
  | nil => cases hx
  | cons t ts =>
    rcases List.mem_append.1 hx with hx | hx
    · exact h t List.mem_cons_self x hx
    · obtain ⟨u, hu, hx⟩ := List.mem_flatMap.1 hx
      rcases List.mem_append.1 hx with hx | hx
      · exact hs x hx
      · exact h u (List.mem_cons_of_mem _ hu) x hx

theorem isFrom_of (v : Text) : (Attribute.of attributeName v).IsFrom (attributeName ++ v) := by
  have hname : attributeName ≠ [] ∧ ∀ x ∈ attributeName, Attribute.isNameChar x = true :=
    ⟨by decide, List.all_eq_true.1 (by decide)⟩
  refine ⟨hname.1, hname.2, List.subset_append_left _ _, ?_⟩
  rintro _ ⟨⟩
  exact List.subset_append_right _ _

/-- Attribute text, the name of styles and a style hold no bracket if the first and the last do
not. -/
theorem unbracketed_of (ht : ∀ x ∈ t, x ≠ '<' ∧ x ≠ '>') (hu : ∀ x ∈ u, x ≠ '<' ∧ x ≠ '>') :
    ∀ x ∈ t ++ (attributeName ++ u), x ≠ '<' ∧ x ≠ '>' := by
  have hname : attributeName.all fun x => decide (x ≠ '<' ∧ x ≠ '>') := by decide
  refine List.forall_mem_append.2 ⟨ht, List.forall_mem_append.2 ⟨fun x hx => ?_, hu⟩⟩
  exact of_decide_eq_true (List.all_eq_true.1 hname x hx)

theorem lowerChar_unbracketed (x : Char) (h : x ≠ '<' ∧ x ≠ '>') :
    lowerChar x ≠ '<' ∧ lowerChar x ≠ '>' := by
  have hmark := not_mem_lowerChar ['<', '>'] (by decide) x (by simp [h])
  simpa using hmark

theorem unbracketed_withBase (ht : ∀ x ∈ t, x ≠ '<' ∧ x ≠ '>')
    (hb : ∀ x ∈ base, x ≠ '<' ∧ x ≠ '>') :
    ∀ x ∈ withBase t base, x ≠ '<' ∧ x ≠ '>' := by
  generalize hv : merge base
    (join [';'] (((Attribute.scan t).filter (·.is attributeName)).filterMap (·.value))) = v
  have hmerged : ∀ x ∈ v, x ≠ '<' ∧ x ≠ '>' := by
    rw [← hv]
    refine forall_merge lowerChar_unbracketed (by decide) (by decide) hb
      (forall_join (by simp) fun u hu x hx => ?_)
    obtain ⟨a, ha, hvalue⟩ := List.mem_filterMap.1 hu
    exact ht x ((Attribute.isFrom_scan (List.mem_filter.1 ha).1).value u hvalue hx)
  have hfrom : ∀ a ∈ (Attribute.scan t).filter (!·.is attributeName) ++ [.of attributeName v],
      a.IsFrom (t ++ (attributeName ++ v)) := by
    refine List.forall_mem_append.2 ⟨fun a ha => ?_, List.forall_mem_singleton.2 ?_⟩
    · exact (Attribute.isFrom_scan (List.mem_filter.1 ha).1).mono (List.subset_append_left _ _)
    · exact (isFrom_of v).mono (List.subset_append_right _ _)
  rw [withBase, hv]
  exact Attribute.unbracketed_renderAll hfrom (unbracketed_of ht hmerged)

end characters
end Style

namespace Attribute
private theorem scan_write {as : List (Text × Text)} (names : ∀ a ∈ as, IsAttributeName a.1)
    (values : ∀ a ∈ as, '"' ∉ a.2) :
    scan (Attributes.write as) = as.map fun a => Attribute.of a.1 a.2 := by
  induction as with
  | nil => exact scan_blank rfl
  | cons a as ih =>
    obtain ⟨hn, names⟩ := List.forall_mem_cons.1 names
    obtain ⟨hv, values⟩ := List.forall_mem_cons.1 values
    have htrim : trimStart (Attributes.write (a :: as)) =
        a.1 ++ '=' :: '"' :: (a.2 ++ '"' :: Attributes.write as) := by
      obtain ⟨c, cs, hc⟩ := List.exists_cons_of_ne_nil hn.1
      have hb := (hn.2 c (by simp [hc])).2.1
      have hsp : isBlank ' ' = true := by decide
      simp [trimStart, Attributes.write, hc, hb, hsp]
    have hname : ∀ x ∈ a.1, Attribute.isNameChar x = true := by
      intro x hx
      obtain ⟨-, hb, hp⟩ := hn.2 x hx
      simp only [List.mem_cons, List.not_mem_nil, or_false, not_or] at hp
      simp [Attribute.isNameChar, hb, hp]
    rw [scan_eq (by simp [htrim]), htrim, scanOne_write hn.1 hname (.inl rfl) hv, ih names values]
    rfl

private theorem renderAll_of {as : List (Text × Text)} (names : ∀ a ∈ as, IsAttributeName a.1)
    (values : ∀ a ∈ as, '"' ∉ a.2) :
    renderAll (as.map fun a => Attribute.of a.1 a.2) = Attributes.write as := by
  rw [renderAll, List.flatMap_map, Attributes.write, List.flatMap_def, List.flatMap_def]
  refine congrArg List.flatten (List.map_congr_left fun a ha => ?_)
  have hn : lower a.1 = a.1 := lower_eq_self fun x hx => ((names a ha).2 x hx).1
  have hv : a.2.any (· == '"') = false := by
    rw [List.any_eq_false]
    rintro x hx hq
    exact values a ha (beq_iff_eq.1 hq ▸ hx)
  simp [render, Attribute.of, hn, hv, replaceChar_of_not_mem (values a ha)]

theorem is_of {name v : Text} (hn : IsAttributeName name) :
    (Attribute.of name v).is Style.attributeName = (name == Style.attributeName) := by
  have hname : lower name = name := lower_eq_self fun x hx => (hn.2 x hx).1
  have hstyle : lower Style.attributeName = Style.attributeName := by decide
  rw [Attribute.is, sameLetters, hstyle, Attribute.of, hname]

end Attribute

/-- The style among attributes; the empty one if there is none. -/
def Attributes.style (as : List (Text × Text)) : Text := (as.lookup Style.attributeName).getD []

/-- Attributes with a base style under their own: all others, and one style at the end. -/
def Attributes.restyled (base : Text) (as : List (Text × Text)) : List (Text × Text) :=
  as.filter (·.1 != Style.attributeName) ++
    [(Style.attributeName, Style.merge base (Attributes.style as))]

section restyled
variable {as : List (Text × Text)} {base : Text}

private theorem join_values (distinct : (as.map Prod.fst).Nodup) :
    join [';'] ((as.filter (·.1 == Style.attributeName)).map Prod.snd) = Attributes.style as := by
  induction as with
  | nil => rfl
  | cons a as ih =>
    obtain ⟨name, value⟩ := a
    obtain ⟨ha, distinct⟩ := List.nodup_cons.1 distinct
    by_cases hs : name = Style.attributeName
    · have hnone : as.filter (·.1 == Style.attributeName) = [] := by
        rw [List.filter_eq_nil_iff]
        intro b hb heq
        exact ha (List.mem_map.2 ⟨b, hb, (beq_iff_eq.1 heq).trans hs.symm⟩)
      simp [Attributes.style, hs, hnone, join]
    · have hne : (Style.attributeName == name) = false := beq_false_of_ne (Ne.symm hs)
      have ih := ih distinct
      rw [Attributes.style] at ih ⊢
      simpa [List.lookup_cons, hs, hne] using ih

theorem IsQuotable.style (values : ∀ a ∈ as, IsQuotable a.2) :
    IsQuotable (Attributes.style as) := by
  rw [Attributes.style]
  cases h : as.lookup Style.attributeName with
  | none => exact nofun
  | some v =>
    obtain ⟨l₁, l₂, rfl, -⟩ := List.lookup_eq_some_iff.1 h
    exact values (Style.attributeName, v) (by simp)

private theorem isAttributeName_style : IsAttributeName Style.attributeName := by decide

theorem restyled_names (names : ∀ a ∈ as, IsAttributeName a.1) :
    ∀ a ∈ Attributes.restyled base as, IsAttributeName a.1 :=
  List.forall_mem_append.2 ⟨fun a ha => names a (List.mem_filter.1 ha).1,
    List.forall_mem_singleton.2 isAttributeName_style⟩

theorem restyled_values (values : ∀ a ∈ as, IsQuotable a.2) (hb : IsQuotable base) :
    ∀ a ∈ Attributes.restyled base as, IsQuotable a.2 :=
  List.forall_mem_append.2 ⟨fun a ha => values a (List.mem_filter.1 ha).1,
    List.forall_mem_singleton.2 (Style.isQuotable_merge hb (.style values))⟩

theorem restyled_distinct (distinct : (as.map Prod.fst).Nodup) :
    ((Attributes.restyled base as).map Prod.fst).Nodup := by
  rw [Attributes.restyled, List.map_append, List.nodup_append]
  refine ⟨(List.filter_sublist.map Prod.fst).nodup distinct, by simp, ?_⟩
  rintro n hn _ hs rfl
  obtain ⟨a, ha, rfl⟩ := List.mem_map.1 hn
  have hne := (List.mem_filter.1 ha).2
  simp_all

theorem Style.withBase_write (names : ∀ a ∈ as, IsAttributeName a.1)
    (distinct : (as.map Prod.fst).Nodup) (values : ∀ a ∈ as, IsQuotable a.2)
    (hb : IsQuotable base) :
    Style.withBase (Attributes.write as) base = Attributes.write (Attributes.restyled base as) := by
  have hvalues : ∀ a ∈ as, '"' ∉ a.2 := fun a ha => (values a ha).not_mem.1
  have hstyle : ((as.map fun a => Attribute.of a.1 a.2).filter (·.is attributeName)).filterMap
      (·.value) = (as.filter (·.1 == attributeName)).map Prod.snd := by
    have hfilter : as.filter (fun a => (Attribute.of a.1 a.2).is attributeName) =
        as.filter (·.1 == attributeName) :=
      List.filter_congr fun a ha => Attribute.is_of (names a ha)
    rw [List.filter_map, List.filterMap_map, ← hfilter]
    exact congrFun List.filterMap_eq_map _
  have hothers : (as.map fun a => Attribute.of a.1 a.2).filter (!·.is attributeName) =
      (as.filter (·.1 != attributeName)).map fun a => Attribute.of a.1 a.2 := by
    rw [List.filter_map]
    refine congrArg (List.map _) (List.filter_congr fun a ha => ?_)
    exact congrArg (!·) (Attribute.is_of (names a ha))
  have hrender : _ = Attributes.write (Attributes.restyled base as) :=
    Attribute.renderAll_of (restyled_names names)
      fun a ha => (restyled_values values hb a ha).not_mem.1
  rw [Style.withBase, Attribute.scan_write names hvalues, hstyle, hothers, join_values distinct,
    ← hrender]
  simp [Attributes.restyled]

end restyled
end MailMarkup
