import MailMarkup.Proofs.Document.Edits
import MailMarkup.Proofs.Document.Positions

/-!
# Closing tags in a text

A closing tag is `</`, a name and what follows up to the next bracket, which belongs to the tag if
it is `>`. The reader takes any closing tag in this way but one: the end of raw content is searched
for letter by letter, and what it finds is the first closing tag whose name starts with that of the
element, whether or not the name goes on.
-/
namespace MailMarkup
open Text Reader

/-- A closing tag up to its last bracket, and what stands from there on. -/
structure IsClosingTag (name w r : Text) : Prop where
  letters : ∀ x ∈ name, isTagChar x = true
  gap : (w ++ r).head?.any isTagChar = false
  free : ∀ x ∈ w, x ≠ '<' ∧ x ≠ '>'
  stop : TagStop r

namespace Position
variable {t r r' name name' : Text} {p p' q q' : Position}

/-- In a text, a closing tag with a name, in any case, goes from one position to another. -/
def Closes (t : Text) (p q : Position) (tag : Text) : Prop :=
  ∃ name w r, IsClosingTag name w r ∧ lower name = tag ∧
    p.Marks t ('<' :: '/' :: (name ++ (w ++ r))) ∧ q.Marks t (afterTag r)

/-- A place in a text is told by how many characters are before it. -/
theorem Marks.unique (hp : p.Marks t r) (hq : q.Marks t r') (h : p.index = q.index) :
    p = q ∧ r = r' := by
  obtain ⟨v, hr, hv⟩ := hp.between hq (Nat.le_of_eq h)
  obtain rfl : v = [] := by
    rw [hv, index_read] at h
    exact List.length_eq_zero_iff.1 (by omega)
  exact ⟨hv.symm, hr⟩

private theorem afterTag_suffix (r : Text) : ∃ u, r = u ++ afterTag r ∧ '<' ∉ u := by
  unfold afterTag
  split
  · rename_i h
    obtain ⟨r, rfl⟩ := List.head?_eq_some_iff.1 h
    exact ⟨['>'], rfl, by simp⟩
  · exact ⟨[], rfl, List.not_mem_nil⟩

/-- A closing tag has one `<`, at its start. -/
theorem Closes.spelled (h : p.Closes t q name) :
    ∃ u r, '<' ∉ u ∧ p.Marks t ('<' :: (u ++ r)) ∧ q.Marks t r := by
  obtain ⟨name, w, r, ⟨letters, -, free, -⟩, -, hp, hq⟩ := h
  obtain ⟨u, hu, hlt⟩ := afterTag_suffix r
  refine ⟨'/' :: (name ++ (w ++ u)), afterTag r, ?_, ?_, hq⟩
  · simp only [List.mem_cons, List.mem_append, not_or]
    exact ⟨by decide, fun hx => absurd (letters _ hx) (by decide), fun hx => (free _ hx).1 rfl, hlt⟩
  · simpa only [List.cons_append, List.append_assoc, ← hu] using hp

theorem Closes.index_lt (h : p.Closes t q name) : p.index < q.index := by
  obtain ⟨u, r, -, hp, hq⟩ := h.spelled
  have hpi := hp.index_eq
  have hqi := hq.index_eq
  rw [List.length_cons, List.length_append] at hpi
  omega

theorem Closes.apart (h : p.Closes t q name) (h' : p'.Closes t q' name')
    (hlt : p.index < p'.index) : q.index ≤ p'.index := by
  obtain ⟨u, r, hu, hp, hq⟩ := h.spelled
  obtain ⟨u', r', -, hp', -⟩ := h'.spelled
  by_contra hover
  obtain ⟨v, hv, hr, -⟩ := hp.ne_nil hp' hlt
  obtain ⟨v', hv', hr', -⟩ := hp'.ne_nil hq (Nat.not_le.1 hover)
  obtain ⟨a, v, rfl⟩ := List.exists_cons_of_ne_nil hv
  obtain ⟨b, v', rfl⟩ := List.exists_cons_of_ne_nil hv'
  obtain rfl : '<' = b := (List.cons.inj hr').1
  rw [hr', ← List.append_assoc] at hr
  refine hu ?_
  have hcut := (List.cons.inj hr).2
  rw [List.append_cancel_right hcut]
  exact List.mem_append_right _ List.mem_cons_self

private theorem Closes.name_eq (h : p.Closes t q name) (h' : p.Closes t q' name') :
    name = name' := by
  obtain ⟨written, w, r, ⟨letters, gap, -, -⟩, rfl, hp, -⟩ := h
  obtain ⟨written', w', r', ⟨letters', gap', -, -⟩, rfl, hp', -⟩ := h'
  obtain ⟨-, heq⟩ := hp.unique hp' rfl
  rw [(append_stop_inj letters letters' gap gap' (List.cons.inj (List.cons.inj heq).2).2).1]

/-- No other closing tag starts in a closing tag. -/
theorem Closes.name_eq_of_lt (h : p.Closes t q name) (h' : p'.Closes t q' name')
    (le : p.index ≤ p'.index) (lt : p'.index < q.index) : name' = name := by
  have heq : p.index = p'.index := by
    by_contra hne
    have := h.apart h' (by omega)
    omega
  obtain ⟨u, r, -, hp, -⟩ := h.spelled
  obtain ⟨u', r', -, hp', -⟩ := h'.spelled
  obtain ⟨rfl, -⟩ := hp.unique hp' heq
  exact h'.name_eq h

end Position

namespace Reader
variable {t tag : Text} {c d : Cursor}

section skip
variable {p : Char → Bool} {v r : Text}

private theorem skipWhile_advance (hc : c.rest = v ++ r) (hv : ∀ x ∈ v, p x = true) :
    (c.advance v.length).skipWhile p = c.skipWhile p := by
  rw [Cursor.skipWhile, Cursor.skipWhile, Cursor.rest_advance_append hc, hc,
    List.takeWhile_append_of_pos hv, List.length_append, Cursor.advance_add]

theorem recover_advance (hc : c.rest = v ++ r) (hv : ∀ x ∈ v, x ≠ '<' ∧ x ≠ '>') :
    recover (c.advance v.length) = recover c := by
  have hjunk : junkEnd (c.advance v.length) = junkEnd c :=
    skipWhile_advance hc fun x hx => by simpa using hv x hx
  rw [recover_eq, recover_eq, hjunk]

private theorem rest_recover (c : Cursor) :
    (recover c).rest = afterTag (c.rest.dropWhile fun x => x != '<' && x != '>') := by
  rw [recover_eq, ← Cursor.rest_skipWhile, ← junkEnd, afterTag]
  simp only [Cursor.peek, beq_iff_eq]
  split
  · exact Cursor.rest_next _
  · rfl

end skip

/-- The reader of closing tags takes one closing tag. -/
theorem closes_closingTag (hc : c.In t) (kind : classify c.rest = .closing) :
    c.pos.Closes t (closingTag c).2.pos (closingTag c).1 := by
  obtain ⟨u, hu⟩ := classify_closing kind
  have hd : (c.advance 2).rest = u := by simp [hu]
  have hname : (tagName (c.advance 2)).2.rest = u.dropWhile isTagChar :=
    (Cursor.rest_skipWhile isTagChar _).trans (by rw [hd])
  have hjunk := List.takeWhile_append_dropWhile
    (p := fun x => x != '<' && x != '>') (l := u.dropWhile isTagChar)
  have hend := (reaches_closingTag c).mem hc
  refine ⟨u.takeWhile isTagChar, (u.dropWhile isTagChar).takeWhile fun x => x != '<' && x != '>',
    (u.dropWhile isTagChar).dropWhile fun x => x != '<' && x != '>', ?_, ?_, ?_, ?_⟩
  · refine ⟨fun x hx => List.mem_takeWhile_imp hx, ?_, fun x hx => ?_, fun x hx => ?_⟩
    · rw [hjunk, ← hname]
      exact (c.advance 2).skipWhile_stops isTagChar
    · simpa using List.mem_takeWhile_imp hx
    · have hstop := (tagName (c.advance 2)).2.skipWhile_stops fun x => x != '<' && x != '>'
      rw [Cursor.peek, Cursor.rest_skipWhile, hname, Option.mem_def.1 hx] at hstop
      by_contra hne
      rw [not_or] at hne
      simp [hne] at hstop
  · rw [closingTag_fst, closerName, hu]
    rfl
  · rw [hjunk, List.takeWhile_append_dropWhile, ← hu]
    exact hc
  · have hrest : (closingTag c).2.rest =
        afterTag ((u.dropWhile isTagChar).dropWhile fun x => x != '<' && x != '>') :=
      (rest_recover _).trans (by rw [hname])
    exact hrest ▸ hend

theorem unbracketed_of_isTagChar {x : Char} (h : isTagChar x = true) : x ≠ '<' ∧ x ≠ '>' := by
  constructor <;> rintro rfl <;> exact absurd h (by decide)

/-- Where a closing tag ends does not depend on how far its name goes. -/
theorem closingTag_snd (c : Cursor) : (closingTag c).2 = recover (c.advance 2) :=
  recover_advance (List.takeWhile_append_dropWhile (p := isTagChar)).symm fun _ hx =>
    unbracketed_of_isTagChar (List.mem_takeWhile_imp hx)

/-! ### The end of raw content -/

theorem isTagChar_lowerChar (x : Char) : isTagChar (lowerChar x) = isTagChar x := by
  cases hx : isUpper x with
  | false => rw [lowerChar_of_not_isUpper hx]
  | true => simp [isTagChar, isLetter, hx, isLower_lowerChar hx]

theorem isTagChar_of_mem_tagName {x : Char} (hx : x ∈ (tagName c).1) : isTagChar x = true := by
  obtain ⟨y, hy, rfl⟩ := List.mem_map.1 hx
  rw [isTagChar_lowerChar]
  exact List.mem_takeWhile_imp hy

/-- From `c` on, the first closing tag whose name starts with a given one stands at `d`. -/
structure RawEnd (tag : Text) (c d : Cursor) : Prop where
  reach : c.Reaches d
  kind : classify d.rest = .closing
  named : tag <+: (closingTag d).1
  first : ∀ v w, lower c.rest = v ++ ('<' :: '/' :: (tag ++ w)) → (c.upTo d).length ≤ v.length

theorem RawEnd.index_le (h : RawEnd tag c d) (hc : c.In t) {p q : Position} {name : Text}
    (closes : p.Closes t q name) (behind : c.pos.index ≤ p.index) (named : tag <+: name) :
    d.pos.index ≤ p.index := by
  obtain ⟨written, w, r, -, rfl, marks, -⟩ := closes
  obtain ⟨more, hmore⟩ := named
  obtain ⟨v, hv, rfl⟩ := hc.between marks behind
  have hlower : lower c.rest = lower v ++ ('<' :: '/' :: (tag ++ (more ++ lower (w ++ r)))) := by
    rw [hv, ← List.append_assoc tag, hmore, ← lower_append, lower_append]
    rfl
  have hfirst := h.first _ _ hlower
  rw [length_lower] at hfirst
  rw [h.reach.upTo.2, Position.index_read]
  omega

/-- The text of raw content as nodes. -/
def rawNodes (t : Text) (p : Position) : Forest :=
  if (trim t).isEmpty then [] else [.text (trim t) p]

/-- Raw content that is closed ends at the first closing tag whose name starts with that of the
element, and the tag is taken as any closing tag is. -/
theorem exists_rawEnd (letters : ∀ x ∈ tag, isTagChar x = true)
    (closed : (rawContent tag c).2.1 = true) :
    ∃ d, RawEnd tag c d ∧
      rawContent tag c = (rawNodes (c.upTo d) c.pos, true, (closingTag d).2) := by
  cases hcut : cut? ('<' :: '/' :: tag) (lower c.rest) with
  | none =>
    rw [rawContent, hcut] at closed
    cases closed
  | some r =>
    obtain ⟨body, post⟩ := r
    obtain ⟨hsplit, hmin⟩ := cut?_eq_some_iff.1 hcut
    have hupto := c.upTo_advance_eq_take body.length
    have hlower : lower (c.advance body.length).rest = '<' :: '/' :: (tag ++ post) := by
      rw [Cursor.rest_advance, lower, List.map_drop, ← lower, hsplit, List.drop_left]
      rfl
    obtain ⟨s, hd, hs⟩ := closer_of_lower hlower
    obtain ⟨name, r, rfl, hlow, -⟩ := List.map_eq_append_iff.1 hs
    obtain rfl : lower name = tag := hlow
    have hname : ∀ x ∈ name, isTagChar x = true := fun x hx => by
      rw [← isTagChar_lowerChar]
      exact letters _ (List.mem_map_of_mem hx)
    refine ⟨c.advance body.length, ⟨c.reaches_advance _, ?_, ?_, fun v w hv => ?_⟩, ?_⟩
    · rw [hd]
      rfl
    · refine ⟨lower (r.takeWhile isTagChar), ?_⟩
      rw [closingTag_fst, closerName, hd, ← lower_append, ← List.takeWhile_append_of_pos hname]
      rfl
    · rw [hupto]
      exact Nat.le_trans (List.length_take_le _ _) (hmin v w hv)
    · have hrest : ((c.advance body.length).advance 2).rest = name ++ r := by
        rw [Cursor.rest_advance, hd]
        rfl
      have hend : c.advance (body.length + ('<' :: '/' :: lower name).length) =
          ((c.advance body.length).advance 2).advance name.length := by
        rw [← Cursor.advance_add, ← Cursor.advance_add, List.length_cons, List.length_cons,
          length_lower, Nat.add_assoc, Nat.add_comm name.length, Nat.add_assoc]
      have hrecover := recover_advance hrest fun x hx => unbracketed_of_isTagChar (hname x hx)
      simp only [rawContent, hcut, if_true, hend, hrecover, hupto, closingTag_snd, rawNodes]

end Reader
end MailMarkup
