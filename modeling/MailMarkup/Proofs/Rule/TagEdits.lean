import MailMarkup.Proofs.Document.AttributeText
import MailMarkup.Proofs.Document.Edits
import MailMarkup.Proofs.Pattern.Rewriting
import MailMarkup.Proofs.Rule.OpeningTags

/-!
# Tags rewritten in a text

A rule that writes some of the tags anew that its pattern finds edits the text, if what it writes in
the place of a tag has the same name, and other attribute text that holds no bracket. A slash that
closed the tag is written behind the attributes, with a blank before it.
-/
namespace MailMarkup
open Text Reader Pattern

variable {E : Editing} {change : Change} {e : Expr} {f : Match → Text} {c d : Cursor}
  {ms : List Match}

theorem Reader.Edited.gap {r : Text} (h : Edited E d.rest r) (hd : c.Reaches d)
    (gap : ∀ k, c.Reaches k → k.pos.index < d.pos.index → Stays E k.rest) :
    Edited E c.rest (c.upTo d ++ r) := by
  have hrest := hd.upTo.1
  rw [hrest]
  refine h.keep_append fun w hw hne => ?_
  obtain ⟨v, hv⟩ := hw
  have hlen := congrArg List.length hv
  have hpos := List.length_pos_iff.2 hne
  have hc : c.rest = v ++ (w ++ d.rest) := by rw [hrest, ← hv, List.append_assoc]
  rw [← Cursor.rest_advance_append hc]
  refine gap _ (c.reaches_advance _) (hd.index_advance_lt_iff.2 ?_)
  rw [List.length_append] at hlen
  omega

/-- A text with matches replaced is edited, if the tags between the matches stay as they are, and
each match is edited with what stands behind it. -/
theorem Pattern.Successive.edited (h : Successive e c ms)
    (gap : ∀ k, c.Reaches k → ¬ e.MatchesAt k → Stays E k.rest)
    (step : ∀ m ∈ ms, ∀ r, Edited E m.stop.rest r →
      Edited E m.start.rest (f m ++ r)) :
    Edited E c.rest (rebuild f c ms) := by
  induction h with
  | @done c hn =>
    have hend : (c.advance c.rest.length).rest = [] := by simp
    have hgap := Edited.gap (c := c) (d := c.advance c.rest.length) (r := [])
      (by rw [hend]; exact .nil) (c.reaches_advance _) fun k hk _ => gap k hk (hn k hk)
    have hup := (c.reaches_advance c.rest.length).upTo.1
    rwa [List.append_nil, ← List.append_nil (c.upTo _), ← hend, ← hup] at hgap
  | @found c m ms hs hr hf h ih =>
    obtain ⟨hm, step⟩ := List.forall_mem_cons.1 step
    have hrest := ih (fun k hk => gap k (hs.trans (hr.reaches.trans hk))) step
    rw [rebuild, List.append_assoc]
    exact (hm _ hrest).gap hs fun k hk hlt => gap k hk (hf k hk hlt)

section bracket
variable {as : List Expr} {t u v : Text}

theorem not_matches_of_not_mem {c : Cursor} {w r : Text} (ht : '<' ∉ t) (hw : w <:+ t)
    (hne : w ≠ []) (hc : c.rest = w ++ r) : ¬ (Forbidden.opened as).MatchesAt c := by
  rintro ⟨d, hd⟩
  obtain ⟨x, w, rfl⟩ := List.exists_cons_of_ne_nil hne
  obtain ⟨v, hv⟩ := Forbidden.reads_opened hd
  obtain ⟨rfl, -⟩ : x = '<' ∧ w ++ r = v := by simpa [hc] using hv
  exact ht (hw.subset List.mem_cons_self)

/-- A pattern that starts with a bracket leaves a text without brackets as it is. -/
theorem rewrites_text (ht : '<' ∉ t) : Rewrites (Forbidden.opened as) f t t :=
  .same fun _ _ _ hw hne hc => not_matches_of_not_mem ht hw hne hc

theorem rewrites_unmatched (ht : '<' ∉ t)
    (hn : ∀ ⦃c r⦄, c.rest = '<' :: (t ++ r) → ¬ (Forbidden.opened as).MatchesAt c) :
    Rewrites (Forbidden.opened as) f ('<' :: t) ('<' :: t) := by
  refine .same fun c w r hw hne hc => ?_
  rcases List.suffix_cons_iff.1 hw with rfl | hw
  · exact hn hc
  · exact not_matches_of_not_mem ht hw hne hc

theorem infix_of_infix_append (hu : '<' ∉ u) (h : '<' :: v <:+: u ++ t) : '<' :: v <:+: t := by
  induction u with
  | nil => exact h
  | cons x u ih =>
    rw [List.mem_cons, not_or] at hu
    rcases List.infix_cons_iff.1 h with h | h
    · exact absurd (List.cons_prefix_cons.1 h).1 hu.1
    · exact ih hu.2 h

end bracket

namespace Tags

/-- The reader of documents cuts a tag with these parts as the pattern does, and a slash before the
closing bracket belongs to no value. -/
structure Aligned (name body slash : Text) : Prop where
  letter : name.head?.any isLetter = true
  name : ∀ x ∈ name, isTagChar x = true
  gap : body.head?.any isTagChar = false
  slash : Attribute.scan (body ++ slash) = Attribute.scan body

theorem IsTag.startTag {l : Language Char} {name body slash : Text} (h : IsTag l name body slash)
    (ha : Aligned name body slash) (r : Text) : IsStartTag name (body ++ slash) ('>' :: r) where
  letter := ha.letter
  letters := ha.name
  gap := by
    cases body with
    | nil => rcases h.slash with rfl | rfl <;> decide
    | cons x body => exact ha.gap
  free := h.free
  stop := by
    rintro _ ⟨⟩
    exact .inr rfl

theorem IsTag.keep {l : Language Char} {name body slash t r : Text} (h : IsTag l name body slash)
    (word : ∀ x ∈ name, isWord x) (hr : Edited E t r)
    (stays : Stays E ('<' :: (name ++ (body ++ (slash ++ '>' :: t))))) :
    Edited E ('<' :: (name ++ (body ++ (slash ++ '>' :: t))))
      ('<' :: (name ++ (body ++ (slash ++ '>' :: r)))) := by
  have hsplit (t : Text) : name ++ (body ++ (slash ++ '>' :: t)) =
      (name ++ (body ++ (slash ++ ['>']))) ++ t := by simp
  rw [hsplit t] at stays ⊢
  rw [hsplit r]
  exact hr.keep_tag (h.unopened word) stays

/-- What is written behind the attributes of a tag, given the slash that closed it. -/
def ending (slash : Text) : Text := if slash.isEmpty then [] else [' ', '/']

section ending
variable {l : Language Char} {name body slash front : Text}

/-- An attribute text that may stand in front of the ending of a tag. -/
structure IsFront (front : Text) : Prop where
  gap : front.head?.any isTagChar = false
  free : ∀ x ∈ front, x ≠ '<' ∧ x ≠ '>'

theorem IsFront.startTag (h : IsFront front) (ha : Aligned name body slash) (r : Text) :
    IsStartTag name (front ++ ending slash) ('>' :: r) := by
  have hending : (ending slash).head?.any isTagChar = false ∧
      ∀ x ∈ ending slash, x ≠ '<' ∧ x ≠ '>' := by
    unfold ending
    split
    · exact ⟨rfl, nofun⟩
    · exact ⟨by decide, List.forall_mem_cons.2 ⟨by decide, List.forall_mem_singleton.2 (by decide)⟩⟩
  refine ⟨⟨ha.letter, ha.name, ?_, ?_⟩, List.forall_mem_append.2 ⟨h.free, hending.2⟩⟩
  · cases front with
    | nil => exact hending.1
    | cons x front => exact h.gap
  · rintro _ ⟨⟩
    exact .inr rfl

theorem scan_ending (h : ∀ a ∈ Attribute.scan front, a.IsComplete) (slash : Text) :
    Attribute.scan (front ++ ending slash) = Attribute.scan front := by
  have hblank : (ending slash).head?.all isBlank ∧ (trimStart (ending slash)).head? ≠ some '=' ∧
      Attribute.scan (ending slash) = [] := by
    unfold ending
    split
    · exact ⟨rfl, nofun, Attribute.scan_blank rfl⟩
    · exact ⟨by decide, by decide, by decide +kernel⟩
  rw [Attribute.scan_append h hblank.1 hblank.2.1, hblank.2.2, List.append_nil]

theorem slashLast_eq_false {t : Text} (h : t.getLast? ≠ some '/') :
    Attribute.slashLast t = false :=
  Bool.eq_false_iff.2 (mt Attribute.getLast?_of_slashLast h)

private theorem slashLast_ending (ht : IsTag l name body slash) (ha : Aligned name body slash)
    (settled : slash = [] → body.getLast? ≠ some '/')
    (terminated : ∀ a ∈ Attribute.scan body, a.unterminated = false)
    (complete : ∀ a ∈ Attribute.scan front, a.IsComplete) (last : front.getLast? ≠ some '/') :
    Attribute.slashLast (front ++ ending slash) = Attribute.slashLast (body ++ slash) := by
  rcases ht.slash with rfl | rfl
  · rw [ending, List.append_nil, slashLast_eq_false (settled rfl)]
    exact slashLast_eq_false (by rwa [List.isEmpty_nil, if_pos rfl, List.append_nil])
  · have hend : front ++ ending ['/'] = (front ++ [' ']) ++ ['/'] := by
      rw [List.append_assoc]
      rfl
    have hscan : Attribute.scan (front ++ [' ']) = Attribute.scan front := by
      rw [Attribute.scan_append complete (by decide) (by decide),
        Attribute.scan_blank (t := [' ']) (by decide), List.append_nil]
    rw [Attribute.slashLast_of_scan_eq terminated ha.slash, hend]
    refine Attribute.slashLast_of_scan_eq ?_ ?_
    · rw [hscan]
      exact fun a ha => (complete a ha).1
    · rw [← hend, scan_ending complete, hscan]

theorem changes_ending (ht : IsTag l name body slash) (ha : Aligned name body slash)
    (settled : slash = [] → body.getLast? ≠ some '/')
    (terminated : ∀ a ∈ Attribute.scan (body ++ slash), a.unterminated = false)
    (hf : IsFront front) (complete : ∀ a ∈ Attribute.scan front, a.IsComplete)
    (last : front.getLast? ≠ some '/')
    (table : Attribute.table (Attribute.scan front) =
      change (lower name) (Attribute.table (Attribute.scan body))) :
    Changes change name (body ++ slash) (front ++ ending slash) := by
  refine ⟨.of_unbracketed ht.free terminated,
    .of_unbracketed (hf.startTag ha []).free ?_, ?_, ?_⟩
  · rw [scan_ending complete]
    exact fun a ha => (complete a ha).1
  · rw [scan_ending complete, ha.slash, table]
  · rw [ha.slash] at terminated
    exact slashLast_ending ht ha settled terminated complete last

end ending
section found
variable {n : Expr} {l : Language Char} {name body t' t : Text}

/-- A tag without a slash before its closing bracket is matched as a whole, and is replaced. -/
theorem NamePart.rewrites (h : NamePart n l) (ht : IsTag l name body [])
    (last : body.getLast? ≠ some '/')
    (hf : ∀ m : Match, m.group 1 = name → m.group 2 = body → m.group 3 = [] →
      m.text = '<' :: (name ++ (body ++ ['>'])) → f m = t') :
    Rewrites (Forbidden.opened (tagParts n)) f ('<' :: (name ++ (body ++ ['>']))) t' := by
  have hsplit (r : Text) : '<' :: (name ++ (body ++ ['>'])) ++ r =
      '<' :: (name ++ (body ++ ([] ++ '>' :: r))) := by simp
  refine .whole (fun c r hc => h.complete ht (hc.trans (hsplit r))) fun c r d hc hd => ?_
  have hm : (Forbidden.opened (tagParts n)).Reads ⟨(⟨c, d.place, d.notes⟩ : Match).start, []⟩
    ⟨(⟨c, d.place, d.notes⟩ : Match).stop, d.notes⟩ := hd
  obtain ⟨htag, hstart⟩ := h.sound hm
  have hwhole := (List.cons.inj (hstart.symm.trans (hc.trans (hsplit r)))).2
  obtain ⟨hname, hbody, hr⟩ := htag.cut_inj ht (h.word _ htag.name) (h.word _ ht.name) hwhole
  rw [List.append_nil] at hbody
  have hslash : Match.group ⟨c, d.place, d.notes⟩ 3 = [] := by
    refine htag.slash.resolve_right fun hs => last ?_
    rw [← hbody, hs, List.getLast?_concat]
  rw [hslash, List.append_nil] at hbody
  have htext := h.text_eq hm
  rw [hname, hbody, hslash, List.nil_append] at htext
  refine ⟨hd.reaches.eq_advance ?_, hf _ hname hbody hslash htext⟩
  rw [hc]
  exact congrArg _ hr.symm

/-- Where a closing tag starts, no opening one is matched. -/
theorem NamePart.rewrites_closing (h : NamePart n l) (ht : '<' ∉ t) :
    Rewrites (Forbidden.opened (tagParts n)) f ('<' :: '/' :: t) ('<' :: '/' :: t) := by
  refine rewrites_unmatched (by simpa using ht) fun c r hc => ?_
  rintro ⟨d, hd⟩
  have hm : (Forbidden.opened (tagParts n)).Reads ⟨(⟨c, d.place, d.notes⟩ : Match).start, []⟩
    ⟨(⟨c, d.place, d.notes⟩ : Match).stop, d.notes⟩ := hd
  obtain ⟨htag, hstart⟩ := h.sound hm
  obtain ⟨x, v, hv⟩ := List.exists_cons_of_ne_nil (h.ne_nil _ htag.name)
  have hword := h.word _ htag.name x (hv ▸ List.mem_cons_self)
  rw [hv] at hstart
  obtain rfl : '/' = x := (List.cons.inj (List.cons.inj (hc.symm.trans hstart)).2).1
  exact absurd hword (by decide)

theorem NamePart.rewrites_other {l' : Language Char} {slash : Text} (h : NamePart n l)
    (ht : IsTag l' name body slash) (word : ∀ x ∈ name, isWord x) (hn : name ∉ l) :
    Rewrites (Forbidden.opened (tagParts n)) f ('<' :: (name ++ (body ++ (slash ++ ['>']))))
      ('<' :: (name ++ (body ++ (slash ++ ['>'])))) := by
  refine rewrites_unmatched (ht.unopened word) fun c r hc => ?_
  rintro ⟨d, hd⟩
  have hm : (Forbidden.opened (tagParts n)).Reads ⟨(⟨c, d.place, d.notes⟩ : Match).start, []⟩
    ⟨(⟨c, d.place, d.notes⟩ : Match).stop, d.notes⟩ := hd
  obtain ⟨htag, hstart⟩ := h.sound hm
  have heq := (List.cons.inj (hc.symm.trans hstart)).2
  obtain ⟨rfl, -⟩ := ht.cut_inj htag word (h.word _ htag.name) (by simpa using heq)
  exact hn htag.name

section infixes
variable {l' : Language Char} {name' body' slash slash' : Text}

/-- A tag that is found where another one stands is that one, or found behind it. -/
theorem IsTag.eq_or_infix (h : IsTag l name body slash) (h' : IsTag l' name' body' slash')
    (word : ∀ x ∈ name, isWord x) (word' : ∀ x ∈ name', isWord x)
    (settled : slash = [] → body.getLast? ≠ some '/')
    (settled' : slash' = [] → body'.getLast? ≠ some '/')
    (hin : '<' :: (name' ++ (body' ++ (slash' ++ ['>']))) <:+:
      '<' :: (name ++ (body ++ (slash ++ '>' :: t)))) :
    (name = name' ∧ body = body' ∧ slash = slash') ∨
      '<' :: (name' ++ (body' ++ (slash' ++ ['>']))) <:+: t := by
  rcases List.infix_cons_iff.1 hin with ⟨r, hr⟩ | hin
  · have heq : name ++ (body ++ (slash ++ '>' :: t)) =
        name' ++ (body' ++ (slash' ++ '>' :: r)) := by simpa using (List.cons.inj hr).2.symm
    obtain ⟨hname, hbody, hslash, -⟩ := h.unique h' word word' settled settled' heq
    exact .inl ⟨hname, hbody, hslash⟩
  · have hsplit : name ++ (body ++ (slash ++ '>' :: t)) =
        (name ++ (body ++ (slash ++ ['>']))) ++ t := by simp
    exact .inr (infix_of_infix_append (h.unopened word) (hsplit ▸ hin))

/-- A closing tag is not an opening one, so that is found behind it. -/
theorem infix_of_closing {v : Text} (hne : name ≠ []) (word : ∀ x ∈ name, isWord x)
    (h : '<' :: (name ++ v) <:+: '<' :: '/' :: t) : '<' :: (name ++ v) <:+: t := by
  rcases List.infix_cons_iff.1 h with h | h
  · obtain ⟨x, name, rfl⟩ := List.exists_cons_of_ne_nil hne
    obtain ⟨-, h⟩ := List.cons_prefix_cons.1 h
    obtain rfl := (List.cons_prefix_cons.1 h).1
    exact absurd (word '/' List.mem_cons_self) (by decide)
  · exact infix_of_infix_append (u := ['/']) (by decide) h

end infixes

end found
end Tags
end MailMarkup
