import MailMarkup.Proofs.Document.Canonical
import MailMarkup.Proofs.Text.Search

/-!
# Reading the parts of markup

Names, values, attributes, comments, closing tags and raw content are each read back from what is
written of them, up to their end and whatever follows.
-/
namespace MailMarkup
namespace Text

theorem takeWhile_append_stop {p : Char → Bool} {t rest : Text} (ht : ∀ x ∈ t, p x = true)
    (hr : rest.head?.any p = false) : (t ++ rest).takeWhile p = t := by
  rw [List.takeWhile_append_of_pos ht]
  cases rest with
  | nil => simp
  | cons x rest => simp_all

/-- Where the characters of one kind end, a text is cut in one way. -/
theorem append_stop_inj {p : Char → Bool} {t u r s : Text} (ht : ∀ x ∈ t, p x = true)
    (hu : ∀ x ∈ u, p x = true) (hr : r.head?.any p = false) (hs : s.head?.any p = false)
    (h : t ++ r = u ++ s) : t = u ∧ r = s := by
  have htu : t = u := by
    rw [← takeWhile_append_stop ht hr, h, takeWhile_append_stop hu hs]
  exact ⟨htu, List.append_cancel_left (htu ▸ h)⟩

theorem lower_eq_self {t : Text} (h : ∀ x ∈ t, isUpper x = false) : lower t = t := by
  refine (List.map_congr_left fun x hx => ?_).trans (List.map_id t)
  simp [lowerChar, h x hx]

theorem lower_append (t u : Text) : lower (t ++ u) = lower t ++ lower u := List.map_append

theorem length_lower (t : Text) : (lower t).length = t.length := List.length_map _

theorem isUpper_eq_false_of_isLower {x : Char} (h : isLower x = true) : isUpper x = false := by
  simp only [isLower, isUpper, Bool.and_eq_true, Bool.and_eq_false_iff, decide_eq_true_eq,
    decide_eq_false_iff_not] at h ⊢
  exact .inr fun hx => absurd (Char.le_trans h.1 hx) (by decide)

private theorem isUpper_eq_false_of_isDigit {x : Char} (h : isDigit x = true) :
    isUpper x = false := by
  simp only [isDigit, isUpper, Bool.and_eq_true, Bool.and_eq_false_iff, decide_eq_true_eq,
    decide_eq_false_iff_not] at h ⊢
  exact .inl fun hx => absurd (Char.le_trans hx h.2) (by decide)

end Text

open Text Reader

theorem IsTrimmed.head_not_blank {t : Text} (h : IsTrimmed t) : t.head?.any isBlank = false := by
  cases t with
  | nil => rfl
  | cons x t =>
    cases hx : isBlank x with
    | false => simp [hx]
    | true =>
      have h1 := congrArg List.length h.2
      have hle := fun t : Text => (List.dropWhile_sublist (p := isBlank) (l := t)).length_le
      have h2 := hle t
      have h3 := hle (t.dropWhile isBlank).reverse
      simp only [trim, trimEnd, trimStart, List.dropWhile_cons, hx, ↓reduceIte, List.length_reverse,
        List.length_cons] at h1 h3
      omega

theorem IsTag.mem {t : Text} (h : IsTag t) {x : Char} (hx : x ∈ t) :
    isTagChar x = true ∧ isUpper x = false := by
  cases t with
  | nil => simp at hx
  | cons c t =>
    have hx' : isLower x = true ∨ isDigit x = true ∨ x ∈ [':', '.', '_', '-'] := by
      rcases List.mem_cons.1 hx with rfl | hx
      · exact .inl h.1
      · exact h.2 x hx
    rcases hx' with hl | hd | hp
    · exact ⟨by simp [isTagChar, isLetter, hl], isUpper_eq_false_of_isLower hl⟩
    · exact ⟨by simp [isTagChar, hd], isUpper_eq_false_of_isDigit hd⟩
    · simp only [List.mem_cons, List.not_mem_nil, or_false] at hp
      rcases hp with rfl | rfl | rfl | rfl <;> decide

theorem IsAttributeName.isNameChar {t : Text} (h : IsAttributeName t) {x : Char} (hx : x ∈ t) :
    isNameChar x = true := by
  obtain ⟨-, hb, hp⟩ := h.2 x hx
  simpa [Reader.isNameChar, hb, and_assoc] using hp

namespace Reader
variable {c : Cursor} {rest : Text}

theorem skipBlanks_eq_self (h : c.peek.any isBlank = false) : c.skipBlanks = c := by
  have ht : c.rest.takeWhile isBlank = [] := takeWhile_append_stop (t := []) nofun h
  simp [Cursor.skipBlanks, Cursor.skipWhile, ht, Cursor.advance]

theorem tagName_write {tag : Text} (ht : IsTag tag) (hc : c.rest = tag ++ rest)
    (hr : rest.head?.any isTagChar = false) :
    (tagName c).1 = tag ∧ (tagName c).2.rest = rest := by
  have hn : (tag ++ rest).takeWhile isTagChar = tag :=
    takeWhile_append_stop (fun x hx => (ht.mem hx).1) hr
  simp [tagName, hn, hc, lower_eq_self fun x hx => (ht.mem hx).2]

theorem recover_end (hc : c.rest = '>' :: rest) : (recover c).rest = rest := by
  simp [recover, Cursor.peek, Cursor.rest_skipWhile, hc]

private theorem quotedValue_write {v : Text} (hv : '"' ∉ v) (hc : c.rest = v ++ '"' :: rest) :
    (quotedValue '"' c).1 = v ∧ (quotedValue '"' c).2.rest = rest := by
  have ht : (v ++ '"' :: rest).takeWhile (· != '"') = v := by
    refine takeWhile_append_stop (fun x hx => ?_) rfl
    rw [bne_iff_ne]
    rintro rfl
    exact hv hx
  simp [quotedValue, ht, hc]

theorem attribute?_write {name v : Text} (hn : IsAttributeName name) (hv : '"' ∉ v)
    (hc : c.rest = name ++ '=' :: '"' :: (v ++ '"' :: rest)) :
    ∃ c', attribute? c = some ((name, v), c') ∧ c'.rest = rest := by
  have ht : (name ++ '=' :: '"' :: (v ++ '"' :: rest)).takeWhile isNameChar = name :=
    takeWhile_append_stop (fun x hx => hn.isNameChar hx) rfl
  have hd : (c.advance name.length).rest = '=' :: '"' :: (v ++ '"' :: rest) := by simp [hc]
  simp only [attribute?, hc, ht, lower_eq_self fun x hx => (hn.2 x hx).1]
  rw [if_neg (by simpa using hn.1)]
  generalize c.advance name.length = d at hd
  have hq : d.next.rest = '"' :: (v ++ '"' :: rest) := by simp [hd]
  have hpd : d.peek = some '=' := by rw [Cursor.peek, hd]; rfl
  have hpq : d.next.peek = some '"' := by rw [Cursor.peek, hq]; rfl
  have hs : d.skipBlanks = d := skipBlanks_eq_self (by rw [hpd]; decide)
  have hs' : d.next.skipBlanks = d.next := skipBlanks_eq_self (by rw [hpq]; decide)
  have hav : attributeValue d.next = quotedValue '"' d.next.next := by simp [attributeValue, hpq]
  have hr : d.next.next.rest = v ++ '"' :: rest := by simp [hd]
  obtain ⟨h1, h2⟩ := quotedValue_write hv hr
  rw [hs, hs', hav, if_pos (by rw [hpd]; rfl), h1]
  exact ⟨_, rfl, h2⟩

private theorem unbordered_commentEnd : Unbordered ['-', '-', '>'] := by
  intro b hne hs hp
  simp only [List.suffix_cons_iff, List.suffix_nil] at hs
  rcases hs with rfl | rfl | rfl | rfl
  · rfl
  · exact absurd hp (by decide)
  · exact absurd hp (by decide)
  · exact absurd rfl hne

theorem commentBody_write {t : Text} (ht : ¬ "-->".toList <:+: t)
    (hc : c.rest = "<!--".toList ++ t ++ "-->".toList ++ rest) :
    (commentBody c).1 = t ∧ (commentBody c).2.rest = rest := by
  have hd : c.rest.drop 4 = t ++ (['-', '-', '>'] ++ rest) := by simp [hc]
  have hcut := cut?_append unbordered_commentEnd ht rest
  have hr : (c.rest.drop 4).drop (t.length + 3) = rest := by
    rw [hd, List.drop_append]
    simp
  simp only [commentBody, hd, hcut, Cursor.rest_advance, true_and]
  rw [← hr, List.drop_drop, Nat.add_assoc]

theorem closingTag_write {h : Head} (ht : IsTag h.tag) (hc : c.rest = h.writeEnd ++ rest) :
    (closingTag c).1 = h.tag ∧ (closingTag c).2.rest = rest := by
  have hd : (c.advance 2).rest = h.tag ++ '>' :: rest := by simp [hc, Head.writeEnd]
  obtain ⟨h1, h2⟩ := tagName_write ht hd rfl
  exact ⟨h1, recover_end h2⟩

private theorem unbordered_closer {tag : Text} (ht : IsTag tag) :
    Unbordered ('<' :: '/' :: tag) := by
  intro b hne hs hp
  rcases List.suffix_cons_iff.1 hs with rfl | hs
  · rfl
  · obtain ⟨x, b, rfl⟩ := List.exists_cons_of_ne_nil hne
    obtain rfl : x = '<' := (List.cons_prefix_cons.1 hp).1
    rcases List.mem_cons.1 (hs.subset List.mem_cons_self) with hx | hx
    · exact absurd hx (by decide)
    · exact absurd (ht.mem hx).1 (by decide)

theorem rawContent_write {h : Head} {ns : Forest} (ht : IsTag h.tag) (hn : RawContent h.tag ns)
    (hc : c.rest = Forest.write ns ++ h.writeEnd ++ rest) :
    Forest.unplaced (rawContent h.tag c).1 = Forest.unplaced ns ∧
      (rawContent h.tag c).2.1 = true ∧ (rawContent h.tag c).2.2.rest = rest := by
  have hfree : ¬ ('<' :: '/' :: h.tag) <:+: lower (Forest.write ns) := by
    cases hn with
    | empty => simp [Forest.write, lower, List.infix_nil]
    | text trimmed content => simpa [Forest.write] using content
  have hcut : cut? ('<' :: '/' :: h.tag) (lower c.rest) =
      some (lower (Forest.write ns), '>' :: lower rest) := by
    have hend : lower h.writeEnd = h.writeEnd := by
      have hgt : lowerChar '>' = '>' ∧ lowerChar '<' = '<' ∧ lowerChar '/' = '/' := by decide
      have htag := lower_eq_self fun x hx => (ht.mem hx).2
      rw [lower] at htag
      simp [Head.writeEnd, lower, htag, hgt]
    have hl : lower c.rest =
        lower (Forest.write ns) ++ (('<' :: '/' :: h.tag) ++ '>' :: lower rest) := by
      rw [hc, lower_append, lower_append, hend]
      simp [Head.writeEnd]
    rw [hl]
    exact cut?_append (unbordered_closer ht) hfree _
  have htake : c.rest.take (Forest.write ns).length = Forest.write ns := by simp [hc]
  have hend : (c.advance ((Forest.write ns).length + (h.tag.length + 2))).rest = '>' :: rest := by
    rw [Cursor.rest_advance, hc, List.append_assoc, List.drop_append]
    simp [Head.writeEnd]
  simp only [rawContent, hcut, length_lower, htake, List.length_cons, if_true]
  refine ⟨?_, trivial, recover_end hend⟩
  cases hn with
  | empty => rfl
  | text trimmed content =>
    simp [Forest.write, trimmed.1, trimmed.2, Forest.unplaced, Node.unplaced]

end Reader
end MailMarkup
