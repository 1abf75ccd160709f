import MailMarkup.Proofs.Document.AttributeText
import MailMarkup.Proofs.Rule.AnyOpening
import MailMarkup.Proofs.Rule.Sanitizing

/-!
# Opening tags written anew

Several rules look at the attributes of every opening tag, and write some of the tags anew with
other attributes. What stands in the place of a tag is matched again there and falls into the same
parts, but for the attribute text, and no other tag comes about. So what holds of the attributes of
each tag that is written or left alone holds of those of every tag in the text that results.
-/
namespace MailMarkup.Tags
open Text Pattern

/-- The attributes are those of an opening tag in the text. -/
def Carries (t : Text) (as : List Attribute) : Prop :=
  ∃ name body slash, IsParted name body slash ∧
    '<' :: (name ++ (body ++ (slash ++ ['>']))) <:+: t ∧ as = Attribute.scan body

section written
variable {m : Match} {t : Text} {as : List Attribute}

/-- A tag with other attributes, which hold no brackets, falls into the same parts, but for the
attribute text, and the attributes are read back from that. -/
theorem IsParted.withAttributes (h : IsParted (m.group 1) (m.group 2) (m.group 3))
    (hfrom : ∀ a ∈ as, a.IsFrom t) (ht : ∀ x ∈ t, x ≠ '<' ∧ x ≠ '>') :
    ∃ body, IsParted (m.group 1) body (m.group 3) ∧
      Attribute.scan body = as.map Attribute.rendered ∧
      withAttributes m as = '<' :: (m.group 1 ++ (body ++ (m.group 3 ++ ['>']))) := by
  have hfree := Attribute.unbracketed_renderAll hfrom ht
  have hedge : ∀ x ∈ (Attribute.renderAll as).head?, isWord x = false := by
    cases as with
    | nil => exact nofun
    | cons a as =>
      rintro _ ⟨⟩
      decide
  rcases h.slash with hs | hs
  · refine ⟨Attribute.renderAll as, ⟨⟨h.name, hedge, hfree, h.slash⟩,
      fun _ => Attribute.getLast?_renderAll hfrom⟩, Attribute.scan_renderAll_alone hfrom, ?_⟩
    · rw [Tags.withAttributes, hs]
      simp
  · refine ⟨Attribute.renderAll as ++ [' '], ⟨⟨h.name, ?_, ?_, h.slash⟩, by simp [hs]⟩, ?_, ?_⟩
    · cases as with
      | nil =>
        rintro _ ⟨⟩
        decide
      | cons a as => exact hedge
    · exact List.forall_mem_append.2 ⟨hfree, List.forall_mem_singleton.2 (by decide)⟩
    · rw [Attribute.scan_renderAll hfrom (by decide) (by decide),
        Attribute.scan_blank (t := [' ']) (by decide), List.append_nil]
    · rw [Tags.withAttributes, hs]
      simp

end written
/-- A text between an opening bracket and the next bracket, a closing one. -/
def IsBracketed (u : Text) : Prop := ∃ w, (∀ x ∈ w, x ≠ '<' ∧ x ≠ '>') ∧ u = '<' :: (w ++ ['>'])

section bracketed
variable {e : Expr} {f : Match → Text} {u u' v r r' : Text} {c : Cursor} {ms : List Match}

theorem IsBracketed.unique (h : IsBracketed u) (h' : IsBracketed u') (heq : u ++ r = u' ++ r') :
    u = u' ∧ r = r' := by
  obtain ⟨w, hw, rfl⟩ := h
  obtain ⟨w', hw', rfl⟩ := h'
  have hcut : w ++ '>' :: r = w' ++ '>' :: r' := by simpa using heq
  obtain ⟨rfl, hr⟩ := append_stop_inj (p := (· != '>')) (fun x hx => bne_iff_ne.2 (hw x hx).2)
    (fun x hx => bne_iff_ne.2 (hw' x hx).2) rfl rfl hcut
  exact ⟨rfl, (List.cons.inj hr).2⟩

/-- A tag, which other text follows, is no part of a text before another opening bracket unless it
stands at the start of that. -/
theorem IsBracketed.prefix_of_append (h : IsBracketed u) (hv : v ≠ [])
    (heq : u ++ r = v ++ '<' :: r') : ∃ g, v = u ++ g ∧ r = g ++ '<' :: r' := by
  obtain ⟨w, hw, rfl⟩ := h
  obtain ⟨x, v, rfl⟩ := List.exists_cons_of_ne_nil hv
  have hno : '<' ∉ w ++ ['>'] := by
    rw [List.mem_append, not_or]
    exact ⟨fun hx => (hw _ hx).1 rfl, by decide⟩
  rw [List.cons_append, List.cons_append] at heq
  obtain ⟨rfl, htail⟩ := List.cons.inj heq
  rcases List.append_eq_append_iff.1 htail with ⟨g, rfl, hr⟩ | ⟨w', hcut, hr⟩
  · exact ⟨g, rfl, hr⟩
  · cases w' with
    | nil => exact ⟨[], by simpa using hcut.symm, by simpa using hr.symm⟩
    | cons y w' =>
      obtain ⟨rfl, -⟩ := List.cons.inj hr
      exact absurd (by simp [hcut]) hno

theorem IsBracketed.cons (h : IsBracketed u) : ∃ w, u = '<' :: w := by
  obtain ⟨w, -, rfl⟩ := h
  exact ⟨w ++ ['>'], rfl⟩

/-- Wherever a tag stands in a text in which matches are replaced by tags, it stands in the place of
a match, or stood in the text where nothing matches. -/
theorem bracketed_of_rebuild (hms : Successive e c ms) (hf : ∀ m ∈ ms, IsBracketed (f m))
    (hu : IsBracketed u) (h : rebuild f c ms = v ++ (u ++ r)) :
    (∃ m ∈ ms, u = f m) ∨ ∃ s, c.Reaches s ∧ u <+: s.rest ∧ ¬ e.MatchesAt s := by
  induction hms generalizing v with
  | @done c hn =>
    have hplace : (c.advance v.length).rest = u ++ r := Cursor.rest_advance_append h
    exact .inr ⟨_, c.reaches_advance _, ⟨r, hplace.symm⟩, hn _ (c.reaches_advance _)⟩
  | @found c m ms hs hr hfirst hms ih =>
    obtain ⟨hm, hf⟩ := List.forall_mem_cons.1 hf
    have hcut := hs.upTo.1
    have hbefore (n : Nat) := hs.index_advance_lt_iff (n := n)
    rw [rebuild, List.append_assoc] at h
    generalize c.upTo m.start = gap at hcut hbefore h
    obtain ⟨w, hw⟩ := hm.cons
    obtain ⟨w', hw'⟩ := hu.cons
    rcases List.append_eq_append_iff.1 h with ⟨v', rfl, hv⟩ | ⟨g, rfl, hg⟩
    · by_cases hne : v' = []
      · subst hne
        exact .inl ⟨m, List.mem_cons_self, (hm.unique hu hv).1.symm⟩
      · rw [hw', List.cons_append] at hv
        obtain ⟨g, -, hrest⟩ := hm.prefix_of_append hne hv
        rw [← List.cons_append, ← hw'] at hrest
        rcases ih hf hrest with ⟨m, hm, heq⟩ | ⟨s, hstop, hin⟩
        · exact .inl ⟨m, List.mem_cons_of_mem _ hm, heq⟩
        · exact .inr ⟨s, (hs.trans hr.reaches).trans hstop, hin⟩
    · by_cases hne : g = []
      · subst hne
        exact .inl ⟨m, List.mem_cons_self, (hu.unique hm hg).1⟩
      · rw [hw, List.cons_append] at hg
        obtain ⟨g', rfl, -⟩ := hu.prefix_of_append hne hg
        have hc : c.rest = v ++ (u ++ (g' ++ m.start.rest)) := by
          rw [hcut]
          simp
        have hplace := Cursor.rest_advance_append hc
        refine .inr ⟨_, c.reaches_advance _, ⟨_, hplace.symm⟩, hfirst _ (c.reaches_advance _) ?_⟩
        rw [hbefore]
        simp [hw']

end bracketed
section rebuilt
variable {P : List Attribute → Prop} {f : Match → Text} {v r body slash name : Text} {c : Cursor}
  {ms : List Match}

/-- In the place of a match stands a tag with the same parts, but for the attribute text, and with
attributes of which something holds. -/
def Becomes (P : List Attribute → Prop) (f : Match → Text) (m : Match) : Prop :=
  ∃ body, IsParted (m.group 1) body (m.group 3) ∧ P (Attribute.scan body) ∧
    f m = '<' :: (m.group 1 ++ (body ++ (m.group 3 ++ ['>'])))

theorem IsParted.bracketed (h : IsParted name body slash) :
    IsBracketed ('<' :: (name ++ (body ++ (slash ++ ['>'])))) :=
  ⟨name ++ (body ++ slash), h.unbracketed h.word, by simp⟩

/-- Wherever a tag stands in a rebuilt text, it is one that stands in the place of a match. -/
theorem holds_of_rebuild (hms : Successive anyExpr c ms) (hf : ∀ m ∈ ms, Becomes P f m)
    (ho : IsParted name body slash)
    (h : rebuild f c ms = v ++ '<' :: (name ++ (body ++ (slash ++ '>' :: r)))) :
    P (Attribute.scan body) := by
  have hbracketed : ∀ m ∈ ms, IsBracketed (f m) := by
    intro m hm
    obtain ⟨body', hparted, -, hrep⟩ := hf m hm
    exact hrep ▸ hparted.bracketed
  rcases bracketed_of_rebuild hms hbracketed ho.bracketed (v := v) (r := r) (by simpa using h) with
    ⟨m, hm, heq⟩ | ⟨s, -, ⟨r', hs⟩, hno⟩
  · obtain ⟨body', hparted, hbody, hrep⟩ := hf m hm
    obtain ⟨-, rfl, -⟩ := ho.unique hparted (List.cons.inj (heq.trans hrep)).2
    exact hbody
  · exact absurd (anyNamePart.complete ho.toIsTag (by simpa using hs.symm)) hno

theorem forall_carries_rebuild (hms : Successive anyExpr c ms) (hf : ∀ m ∈ ms, Becomes P f m)
    {as : List Attribute} (h : Carries (rebuild f c ms) as) : P as := by
  obtain ⟨name, body, slash, ho, ⟨v, r, hv⟩, rfl⟩ := h
  exact holds_of_rebuild hms hf ho (v := v) (r := r) (by rw [← hv]; simp)

theorem Becomes.imp {Q : List Attribute → Prop} {m : Match} (h : Becomes P f m)
    (himp : ∀ as, P as → Q as) : Becomes Q f m := by
  obtain ⟨body, hparted, hbody, hrep⟩ := h
  exact ⟨body, hparted, himp _ hbody, hrep⟩

private theorem infix_rebuild {m : Match} (hm : m ∈ ms) : f m <:+: rebuild f c ms := by
  induction ms generalizing c with
  | nil => cases hm
  | cons m' ms ih =>
    rw [rebuild]
    rcases List.mem_cons.1 hm with rfl | hm
    · exact (List.suffix_append _ _).isInfix.trans (List.prefix_append _ _).isInfix
    · exact (ih hm).trans (List.suffix_append _ _).isInfix

/-- A text in which each match is left alone is left alone. -/
theorem rebuild_self (hms : Successive anyExpr c ms) (hf : ∀ m ∈ ms, f m = m.text) :
    rebuild f c ms = c.rest := by
  induction hms with
  | done => rfl
  | @found c m ms hs hr hfirst hms ih =>
    obtain ⟨hm, hf⟩ := List.forall_mem_cons.1 hf
    rw [rebuild, hm, ih hf, List.append_assoc, ← hr.rest_eq hs]

end rebuilt
section occurrences
variable {p : Pattern} {t : Text} {m : Match} {P : List Attribute → Prop}

theorem carries_of_occurrence (hp : p.Means anyExpr) (hm : m ∈ p.occurrences t) :
    Carries t (attributesOf m) := by
  obtain ⟨hparted, htext⟩ := parted_of_occurrence hp hm
  have hin := (hp.occurrences_successive rfl t).infix_text hm
  exact ⟨_, _, _, hparted, htext ▸ hin, rfl⟩

/-- The tags that are found are all opening tags in the text. -/
theorem forall_occurrences_iff (hp : p.Means anyExpr) :
    (∀ m ∈ p.occurrences t, P (attributesOf m)) ↔ ∀ as, Carries t as → P as := by
  constructor
  · intro h as has
    have hms := hp.occurrences_successive rfl t
    have hself : rebuild Match.text (.start t) (p.occurrences t) = t :=
      rebuild_self hms fun _ _ => rfl
    refine forall_carries_rebuild hms (f := Match.text) (fun m hm => ?_) (hself.symm ▸ has)
    obtain ⟨hparted, htext⟩ := parted_of_occurrence hp hm
    exact ⟨_, hparted, h m hm, htext⟩
  · exact fun h m hm => h _ (carries_of_occurrence hp hm)

/-- What is made of the attributes of each tag tells those of the tags of the result. -/
theorem forall_carries_replace (hp : p.Means anyExpr) {f : Match → Text}
    (hf : ∀ m ∈ p.occurrences t, Becomes P f m) :
    ∀ as, Carries (p.replace f t) as → P as := by
  rw [replace_eq]
  exact fun as => forall_carries_rebuild (hp.occurrences_successive rfl t) hf

/-- The attributes of the tags in a text in which tags are written anew are told from those that
the tags had. -/
theorem forall_carries_replace_iff (hp : p.Means anyExpr) {f : Match → Text}
    {g : List Attribute → List Attribute}
    (hf : ∀ m ∈ p.occurrences t, Becomes (· = g (attributesOf m)) f m) :
    (∀ as, Carries (p.replace f t) as → P as) ↔ ∀ as, Carries t as → P (g as) := by
  rw [← forall_occurrences_iff hp (P := fun as => P (g as))]
  constructor
  · intro h m hm
    obtain ⟨body, hparted, hbody, hrep⟩ := hf m hm
    rw [← hbody]
    refine h _ ⟨_, _, _, hparted, ?_, rfl⟩
    rw [← hrep, replace_eq]
    exact infix_rebuild hm
  · exact fun h => forall_carries_replace hp fun m hm =>
      (hf m hm).imp fun as has => has ▸ h m hm

end occurrences
section single
variable {t name body slash : Text} {as : List Attribute}

theorem not_carries (h : '<' ∉ t) : ¬ Carries t as := by
  rintro ⟨name, body, slash, -, hin, -⟩
  exact h (hin.subset List.mem_cons_self)

/-- Behind a tag, the text carries what it carries without it. -/
theorem carries_cons (h : IsParted name body slash) :
    Carries ('<' :: (name ++ (body ++ (slash ++ '>' :: t)))) as ↔
      as = Attribute.scan body ∨ Carries t as := by
  have hsplit : '<' :: (name ++ (body ++ (slash ++ '>' :: t))) =
      '<' :: (name ++ (body ++ (slash ++ ['>']))) ++ t := by simp
  constructor
  · rintro ⟨n, b, s, hp, ⟨v, r, hv⟩, rfl⟩
    rw [hsplit, List.append_assoc, eq_comm] at hv
    by_cases hne : v = []
    · subst hne
      have heq : name ++ (body ++ (slash ++ '>' :: t)) = n ++ (b ++ (s ++ '>' :: r)) := by
        simpa using hv
      obtain ⟨-, rfl, -⟩ := h.unique hp heq
      exact .inl rfl
    · have heq : '<' :: (name ++ (body ++ (slash ++ ['>']))) ++ t =
          v ++ '<' :: (n ++ (b ++ (s ++ '>' :: r))) := by simpa using hv
      obtain ⟨g, -, rfl⟩ := h.bracketed.prefix_of_append hne heq
      exact .inr ⟨n, b, s, hp, ⟨g, r, by simp⟩, rfl⟩
  · rintro (rfl | ⟨n, b, s, hp, hin, rfl⟩)
    · exact ⟨name, body, slash, h, hsplit ▸ (List.prefix_append _ t).isInfix, rfl⟩
    · exact ⟨n, b, s, hp, hsplit ▸ hin.trans (List.suffix_append _ t).isInfix, rfl⟩

end single
end MailMarkup.Tags
