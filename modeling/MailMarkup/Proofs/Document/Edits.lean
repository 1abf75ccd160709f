import MailMarkup.Proofs.Document.Twins
import MailMarkup.Proofs.Text.CharSet

/-!
# Texts with other attributes in their tags

A text is edited when the attribute text of some of its tags is written anew, and nothing else. Both
texts have the same kind of markup in the same order, so what is read of the one is read of the
other: each reader of a part of a document leaves the two with texts of which the second again is
the first edited.
-/
namespace MailMarkup.Reader
open Text

/-- The name of the tag that starts here, as it is written. -/
def writtenName (t : Text) : Text := (t.drop 1).takeWhile isTagChar

/-- The attribute text of the tag that starts here, up to a bracket. -/
def attributeText (t : Text) : Text :=
  ((t.drop 1).dropWhile isTagChar).takeWhile fun x => x != '<' && x != '>'

theorem closer_of_lower {b r : Text} (h : lower b = '<' :: '/' :: r) :
    ∃ s, b = '<' :: '/' :: s ∧ lower s = r := by
  obtain ⟨x, s, rfl, hx, hslash⟩ := List.map_eq_cons_iff.1 h
  obtain ⟨y, s, rfl, hy, hs⟩ := List.map_eq_cons_iff.1 hslash
  obtain rfl : '<' = x := hx.symm.trans (lowerChar_eq_self (by rw [hx]; decide))
  obtain rfl : '/' = y := hy.symm.trans (lowerChar_eq_self (by rw [hy]; decide))
  exact ⟨s, rfl, hs⟩

/-- The name and the attribute text of a tag that stands in front of a text. -/
structure IsTagFront (name w r : Text) : Prop where
  letter : name.head?.any isLetter = true
  letters : ∀ x ∈ name, isTagChar x = true
  gap : w.head?.any isTagChar = false
  stop : TagStop r

/-- A tag without brackets in its attribute text. -/
structure IsStartTag (n w r : Text) : Prop extends IsTagFront n w r where
  free : ∀ x ∈ w, x ≠ '<' ∧ x ≠ '>'

/-- The tag that starts here has the attribute text `w`, in which brackets stand between quotes, and
`r` follows it. -/
structure IsTagAt (t w r : Text) : Prop where
  split : t = '<' :: (writtenName t ++ (w ++ r))
  stop : TagStop r
  enclosed : Attribute.Enclosed w

/-- How the attributes of the tags with a name become others. -/
abbrev Change := Text → List (Text × Text) → List (Text × Text)

/-- How a text is edited: what the attributes of its elements become, where these elements start,
and where a tag may be written anew. -/
structure Editing where
  change : Change
  opens : Text → Prop
  edits : Text → Prop

/-- In a tag of the given name, one attribute text says what another does, with the attributes
changed. -/
structure Changes (change : Change) (name w w' : Text) : Prop where
  before : Attribute.Enclosed w
  after : Attribute.Enclosed w'
  table : Attribute.table (Attribute.scan w') =
    change (lower name) (Attribute.table (Attribute.scan w))
  slash : Attribute.slashLast w' = Attribute.slashLast w

/-- The tag of an element that starts here says what it does with its attributes changed, and no tag
that may be written anew starts in it. Of the places where tags are written, only those count where
an element starts. -/
def Stays (E : Editing) (t : Text) : Prop :=
  classify t = .element → E.opens t → ∃ w r, IsTagAt t w r ∧
    E.change (lower (writtenName t)) (Attribute.table (Attribute.scan w)) =
      Attribute.table (Attribute.scan w) ∧
    ∀ s, s <:+ w → s ≠ [] → ¬ E.edits (s ++ r)

/-- One text is another with attributes changed. -/
inductive Edited (E : Editing) : Text → Text → Prop
  | nil : Edited E [] []
  | keep {x : Char} {t u : Text} (same : Stays E (x :: t)) (rest : Edited E t u) :
      Edited E (x :: t) (x :: u)
  | tag {name w w' t u : Text} (opening : IsStartTag name w ('>' :: t))
      (opening' : IsStartTag name w' ('>' :: u))
      (edit : E.edits ('<' :: (name ++ (w ++ '>' :: t))))
      (changes : E.opens ('<' :: (name ++ (w ++ '>' :: t))) → Changes E.change name w w')
      (rest : Edited E t u) :
      Edited E ('<' :: (name ++ (w ++ '>' :: t))) ('<' :: (name ++ (w' ++ '>' :: u)))

section opening
variable {name w r t : Text}

theorem mem_dropWhile {p : Char → Bool} {x : Char} (hx : x ∈ t) (hp : p x = false) :
    x ∈ t.dropWhile p := by
  rw [← List.takeWhile_append_dropWhile (p := p) (l := t), List.mem_append] at hx
  refine hx.resolve_left fun hx => ?_
  rw [List.mem_takeWhile_imp hx] at hp
  cases hp

private theorem mem_trim {x : Char} (hx : x ∈ t) (hp : isBlank x = false) : x ∈ trim t :=
  List.mem_reverse.2 (mem_dropWhile (List.mem_reverse.2 (mem_dropWhile hx hp)) hp)

private theorem classify_comment (h : classify t = .comment) :
    ∃ r, t = '<' :: '!' :: '-' :: '-' :: r := by
  unfold classify at h
  split at h
  · exact ⟨_, rfl⟩
  · exact absurd h nofun
  · exact absurd h nofun
  · exact absurd h nofun
  · split at h <;> exact absurd h nofun
  · exact absurd h nofun

theorem IsTagFront.markup (h : IsTagFront name w r) (s : Text) :
    classify ('<' :: (name ++ s)) = .element := classify_letter h.letter s

theorem IsTagFront.writtenName_eq (h : IsTagFront name w r) :
    writtenName ('<' :: (name ++ (w ++ r))) = name := by
  refine takeWhile_append_stop h.letters ?_
  cases w with
  | nil => exact h.stop.any (by decide) (by decide)
  | cons x w => exact h.gap

theorem IsStartTag.unbracketed (h : IsStartTag name w r) :
    ∀ x ∈ name ++ w, (x != '<' && x != '>') = true := by
  have hmark : isTagChar '<' = false ∧ isTagChar '>' = false := by decide
  refine List.forall_mem_append.2 ⟨fun x hx => ?_, fun x hx => by simp [h.free x hx]⟩
  have hletter := h.letters x hx
  rw [Bool.and_eq_true, bne_iff_ne, bne_iff_ne]
  constructor <;> (rintro rfl; simp [hmark] at hletter)

theorem IsStartTag.parts (h : IsStartTag name w r) :
    writtenName ('<' :: (name ++ (w ++ r))) = name ∧
      attributeText ('<' :: (name ++ (w ++ r))) = w := by
  refine ⟨h.writtenName_eq, ?_⟩
  have hrest : (name ++ (w ++ r)).dropWhile isTagChar = w ++ r := by
    have hname := List.takeWhile_append_dropWhile (p := isTagChar) (l := name ++ (w ++ r))
    have hwritten : (name ++ (w ++ r)).takeWhile isTagChar = name := h.writtenName_eq
    rw [hwritten] at hname
    exact List.append_cancel_left hname
  rw [attributeText, List.drop_succ_cons, List.drop_zero, hrest]
  exact takeWhile_append_stop (fun x hx => h.unbracketed x (List.mem_append_right _ hx))
    (h.stop.any (by decide) (by decide))

/-- What stands before the attribute text of an element is the name of its tag. -/
theorem IsTagAt.front (h : IsTagAt t w r) (kind : classify t = .element) :
    IsTagFront (writtenName t) w r := by
  obtain ⟨x, s, rfl, hx⟩ := classify_element kind
  have htag : isTagChar x = true := by simp [isTagChar, hx]
  refine ⟨by simp [writtenName, htag, hx], fun y hy => List.mem_takeWhile_imp hy, ?_, h.stop⟩
  have hname := List.takeWhile_append_dropWhile (p := isTagChar) (l := x :: s)
  have hrest : (x :: s).dropWhile isTagChar = w ++ r :=
    List.append_cancel_left (hname.trans (List.cons.inj h.split).2)
  have hstop := List.head?_dropWhile_not isTagChar (x :: s)
  rw [hrest] at hstop
  cases w with
  | nil => rfl
  | cons y w => simpa using hstop

/-- Up to its first bracket, the attribute text of a tag is one without brackets. -/
theorem exists_isTagAt (kind : classify t = .element)
    (h : ∀ a ∈ Attribute.scan (attributeText t), a.unterminated = false) :
    ∃ r, IsTagAt t (attributeText t) r ∧ '<' ∉ attributeText t := by
  obtain ⟨x, s, rfl, hx⟩ := classify_element kind
  have hname := List.takeWhile_append_dropWhile (p := isTagChar) (l := x :: s)
  have hbody := List.takeWhile_append_dropWhile (p := fun x => x != '<' && x != '>')
    (l := (x :: s).dropWhile isTagChar)
  have hangle : ∀ y ∈ attributeText ('<' :: x :: s), y ≠ '<' ∧ y ≠ '>' := fun y hy => by
    simpa using List.mem_takeWhile_imp (p := fun y => y != '<' && y != '>') hy
  refine ⟨((x :: s).dropWhile isTagChar).dropWhile fun x => x != '<' && x != '>',
    ⟨?_, fun y hy => ?_, .of_unbracketed hangle h⟩, fun hy => (hangle _ hy).1 rfl⟩
  · change '<' :: x :: s = '<' :: ((x :: s).takeWhile isTagChar ++
      (((x :: s).dropWhile isTagChar).takeWhile (fun x => x != '<' && x != '>') ++ _))
    rw [hbody, hname]
  · have hstop := List.head?_dropWhile_not (fun x => x != '<' && x != '>')
      ((x :: s).dropWhile isTagChar)
    rw [hy] at hstop
    by_cases h : y = '<'
    · exact .inl h
    · exact .inr (by simpa [h] using hstop)

end opening

namespace Edited
variable {E : Editing} {t u v r : Text} {x : Char}

theorem alike (h : Edited E t u) : Alike t u := by
  induction h with
  | nil => exact .refl []
  | @keep x t u same rest ih => exact ih.append [x]
  | @tag name w w' t u opening opening' edit changes rest ih =>
    have hkind := opening.markup (w ++ '>' :: t)
    refine .of_markup ⟨⟨_, rfl⟩, ⟨_, rfl⟩, ?_, fun hcloser => ?_⟩
    · rw [hkind, opening'.markup]
    · rw [hkind] at hcloser
      cases hcloser

theorem head? (h : Edited E t u) : u.head? = t.head? := h.alike.head?

theorem classify_eq (h : Edited E t u) : classify u = classify t := h.alike.classify

theorem nil_iff (h : Edited E t u) : u = [] ↔ t = [] := by
  rw [← List.head?_eq_none_iff, h.head?, List.head?_eq_none_iff]

theorem cons_inv (h : Edited E (x :: t) u)
    (no : classify (x :: t) = .element → ¬ E.edits (x :: t)) :
    ∃ u', u = x :: u' ∧ Edited E t u' := by
  generalize hs : x :: t = s at h
  cases h with
  | nil => cases hs
  | keep same rest =>
    obtain ⟨rfl, rfl⟩ := List.cons.inj hs
    exact ⟨_, rfl, rest⟩
  | tag opening opening' edit changes rest =>
    rw [hs] at no
    exact absurd edit (no (opening.markup _))

theorem cons_inv_of_ne (h : Edited E (x :: t) u) (hx : x ≠ '<') :
    ∃ u', u = x :: u' ∧ Edited E t u' :=
  h.cons_inv fun kind => by
    rw [classify_of_ne hx] at kind
    cases kind

theorem pass_of (h : Edited E (v ++ r) u)
    (no : ∀ s, s <:+ v → s ≠ [] → classify (s ++ r) = .element → ¬ E.edits (s ++ r)) :
    ∃ r', u = v ++ r' ∧ Edited E r r' := by
  induction v generalizing u with
  | nil => exact ⟨u, rfl, h⟩
  | cons x v ih =>
    obtain ⟨u', rfl, h'⟩ := h.cons_inv (no (x :: v) (List.suffix_refl _) (List.cons_ne_nil x v))
    obtain ⟨r', rfl, hr⟩ := ih h' fun s hs => no s (hs.trans (List.suffix_cons x v))
    exact ⟨r', rfl, hr⟩

theorem pass (h : Edited E (v ++ r) u) (hv : '<' ∉ v) : ∃ r', u = v ++ r' ∧ Edited E r r' := by
  refine h.pass_of fun s hs hne kind => ?_
  obtain ⟨x, s, rfl⟩ := List.exists_cons_of_ne_nil hne
  obtain ⟨y, w, heq, -⟩ := classify_element kind
  obtain rfl := (List.cons.inj heq).1
  exact absurd (hs.subset List.mem_cons_self) hv

theorem span {p : Char → Bool} (h : Edited E t u) (hp : p '<' = false) :
    u.takeWhile p = t.takeWhile p ∧ Edited E (t.dropWhile p) (u.dropWhile p) := by
  induction h with
  | nil => exact ⟨rfl, .nil⟩
  | @keep x t u same rest ih =>
    simp only [List.takeWhile_cons, List.dropWhile_cons]
    cases p x with
    | true => exact ⟨congrArg _ ih.1, ih.2⟩
    | false => exact ⟨rfl, .keep same rest⟩
  | tag opening opening' edit changes rest ih =>
    simp only [List.takeWhile_cons, List.dropWhile_cons, hp]
    exact ⟨rfl, .tag opening opening' edit changes rest⟩

theorem behind (h : Edited E t u) :
    Edited E (t.dropWhile (· != '>')).tail (u.dropWhile (· != '>')).tail := by
  induction h with
  | nil => exact .nil
  | @keep x t u same rest ih =>
    by_cases hx : x = '>'
    · subst hx
      exact rest
    · simpa only [List.dropWhile_cons, bne_iff_ne.2 hx, if_true] using ih
  | @tag name w w' t u opening opening' edit changes rest ih =>
    have hcut {w s : Text} (h : IsStartTag name w ('>' :: s)) :
        (('<' :: (name ++ (w ++ '>' :: s))).dropWhile (· != '>')).tail = s := by
      have hall : ∀ x ∈ '<' :: (name ++ w), (x != '>') = true :=
        List.forall_mem_cons.2 ⟨by decide, fun x hx => ((Bool.and_eq_true _ _).mp
          (h.unbracketed x hx)).2⟩
      have hsplit : '<' :: (name ++ (w ++ '>' :: s)) = '<' :: (name ++ w) ++ '>' :: s := by simp
      rw [hsplit, List.dropWhile_append_of_pos hall]
      rfl
    rwa [hcut opening, hcut opening']

theorem keep_append (h : Edited E r u)
    (hv : ∀ w, w <:+ v → w ≠ [] → Stays E (w ++ r)) :
    Edited E (v ++ r) (v ++ u) := by
  induction v with
  | nil => exact h
  | cons x v ih =>
    refine .keep (hv (x :: v) (List.suffix_refl _) (List.cons_ne_nil x v)) (ih fun w hw => ?_)
    exact hv w (hw.trans (List.suffix_cons x v))

private theorem stays_of_ne (hx : x ≠ '<') : Stays E (x :: t) := by
  rw [Stays, classify_of_ne hx]
  exact nofun

theorem stays_self (hE : ∀ tag as, E.change tag as = as)
    (starts : ∀ t, E.edits t → t.head? = some '<')
    (h : E.opens t → ∀ a ∈ Attribute.scan (attributeText t), a.unterminated = false) :
    Stays E t := by
  intro kind ho
  obtain ⟨r, tag, hfree⟩ := exists_isTagAt kind (h ho)
  refine ⟨_, r, tag, hE _ _, fun s hs hne hedit => hfree (hs.subset ?_)⟩
  obtain ⟨x, s, rfl⟩ := List.exists_cons_of_ne_nil hne
  obtain rfl : x = '<' := by simpa using starts _ hedit
  exact List.mem_cons_self

theorem keep_tag (h : Edited E r u) (hv : '<' ∉ v)
    (same : Stays E ('<' :: (v ++ r))) :
    Edited E ('<' :: (v ++ r)) ('<' :: (v ++ u)) := by
  refine .keep same (h.keep_append fun w hw hne => ?_)
  obtain ⟨x, w, rfl⟩ := List.exists_cons_of_ne_nil hne
  exact stays_of_ne fun hx => hv (hw.subset (hx ▸ List.mem_cons_self))

theorem afterTag (h : Edited E t u) :
    Edited E (afterTag t) (Reader.afterTag u) := by
  rw [Reader.afterTag, Reader.afterTag, h.head?]
  split
  · rename_i hgt
    obtain ⟨t', rfl⟩ := List.head?_eq_some_iff.1 hgt
    obtain ⟨u', rfl, h'⟩ := h.cons_inv_of_ne (by decide)
    exact h'
  · exact h

end Edited

/-- The tags at the front of two texts, and what follows their attribute texts. -/
structure EditedTag (E : Editing) (name w w' r r' : Text) : Prop where
  opening : IsTagFront name w r
  opening' : IsTagFront name w' r'
  changes : Changes E.change name w w'
  head : r'.head? = r.head?
  rest : Edited E (afterTag r) (afterTag r')

namespace Edited
variable {E : Editing} {html t u v r : Text} {c d : Cursor}

/-- Where an element starts, one starts in both texts, and its tag is edited or kept. -/
theorem exists_tag (h : Edited E t u) (kind : classify t = .element) (ho : E.opens t) :
    ∃ name w w' r r', t = '<' :: (name ++ (w ++ r)) ∧ u = '<' :: (name ++ (w' ++ r')) ∧
      EditedTag E name w w' r r' := by
  cases h with
  | nil => cases kind
  | @keep x t u same rest =>
    obtain ⟨w, r, tag, hchange, hno⟩ := same kind ho
    have opening := tag.front kind
    obtain ⟨ht, -, enclosed⟩ := tag
    have hsplit : t = writtenName (x :: t) ++ (w ++ r) := (List.cons.inj ht).2
    have hname : '<' ∉ writtenName (x :: t) := fun hx =>
      absurd (opening.letters _ hx) (by decide)
    generalize writtenName (x :: t) = name at ht hsplit opening hname hchange
    rw [hsplit] at rest
    obtain ⟨u', rfl, hu⟩ := rest.pass hname
    obtain ⟨r', rfl, hr⟩ := hu.pass_of fun s hs hne _ => hno s hs hne
    obtain rfl := (List.cons.inj ht).1
    refine ⟨name, w, w, r, r', ht, rfl, opening, { opening with stop := ?_ },
      ⟨enclosed, enclosed, hchange.symm, rfl⟩, hr.head?, hr.afterTag⟩
    rw [TagStop, hr.head?]
    exact opening.stop
  | tag opening opening' edit changes rest =>
    exact ⟨_, _, _, _, _, rfl, rfl, opening.toIsTagFront, opening'.toIsTagFront, changes ho, rfl,
      rest⟩

/-! ### What the readers leave -/

theorem skipBlanks (h : Edited E c.rest d.rest) :
    Edited E c.skipBlanks.rest d.skipBlanks.rest := by
  rw [Cursor.skipBlanks, Cursor.skipBlanks, Cursor.rest_skipWhile, Cursor.rest_skipWhile]
  exact (h.span (by decide)).2

theorem recover (h : Edited E c.rest d.rest) :
    Edited E (recover c).rest (Reader.recover d).rest := by
  have hrest (c : Cursor) : (Reader.recover c).rest =
      Reader.afterTag (c.rest.dropWhile fun x => x != '<' && x != '>') := by
    rw [recover_eq, Reader.afterTag, ← Cursor.rest_skipWhile, ← Cursor.peek]
    change (if (junkEnd c).peek == some '>' then _ else _ : Cursor).rest =
      if (junkEnd c).peek = some '>' then _ else _
    simp only [beq_iff_eq]
    split
    · exact Cursor.rest_next _
    · rfl
  rw [hrest, hrest]
  exact (h.span (p := fun x => x != '<' && x != '>') (by decide)).2.afterTag

theorem closingTag (h : Edited E c.rest d.rest) (kind : classify c.rest = .closing) :
    (closingTag d).1 = (closingTag c).1 ∧
      Edited E (Reader.closingTag c).2.rest (Reader.closingTag d).2.rest := by
  refine ⟨?_, ?_⟩
  · rw [closingTag_fst, closingTag_fst, h.alike.closer kind]
  · obtain ⟨r, hr⟩ := classify_closing kind
    rw [hr] at h kind
    obtain ⟨u, hu, hmark⟩ := h.cons_inv (by rw [kind]; exact nofun)
    obtain ⟨r', rfl, hname⟩ := hmark.cons_inv_of_ne (by decide)
    have hrest (c : Cursor) (r : Text) (hc : c.rest = '<' :: '/' :: r) :
        (tagName (c.advance 2)).2.rest = r.dropWhile isTagChar := by
      have hadv : (c.advance 2).rest = r := by rw [Cursor.rest_advance, hc]; rfl
      exact (Cursor.rest_skipWhile isTagChar _).trans (by rw [hadv])
    refine recover ?_
    rw [hrest c r hr, hrest d r' hu]
    exact (hname.span (p := isTagChar) (by decide)).2

theorem afterDeclaration (h : Edited E c.rest d.rest) :
    Edited E (afterDeclaration c).rest (Reader.afterDeclaration d).rest := by
  rw [afterDeclaration_eq, afterDeclaration_eq, Cursor.rest_next, Cursor.rest_next,
    Cursor.rest_skipWhile, Cursor.rest_skipWhile]
  exact h.behind

theorem textRun (h : Edited E t u) (acc : Text) :
    textRun u acc = textRun t acc ∧
      Edited E (t.drop ((Reader.textRun t acc).length - acc.length))
        (u.drop ((Reader.textRun t acc).length - acc.length)) := by
  have hstop {t u : Text} (h : Edited E t u) (hrun : Reader.textRun t acc = acc.reverse) :
      Edited E (t.drop ((Reader.textRun t acc).length - acc.length))
        (u.drop ((Reader.textRun t acc).length - acc.length)) := by
    rw [hrun, List.length_reverse, Nat.sub_self]
    exact h
  induction h generalizing acc with
  | nil => exact ⟨rfl, hstop .nil rfl⟩
  | @keep x t u same rest ih =>
    have h : Edited E (x :: t) (x :: u) := .keep same rest
    rw [Reader.textRun, h.classify_eq]
    by_cases hkind : classify (x :: t) = .text
    · obtain ⟨hrun, hrest⟩ := ih (x :: acc) fun h hrun => by
        rw [hrun, List.length_reverse, Nat.sub_self]
        exact h
      have hle := length_le_textRun t (x :: acc)
      rw [List.length_cons] at hle hrest
      rw [if_pos hkind, Reader.textRun, if_pos hkind]
      obtain ⟨k, hk⟩ := Nat.exists_eq_add_of_le hle
      have hk' : acc.length + 1 + k - acc.length = k + 1 := by omega
      rw [hk, Nat.add_sub_cancel_left] at hrest
      rw [hk, hk', List.drop_succ_cons, List.drop_succ_cons]
      exact ⟨hrun, hrest⟩
    · have hrun : Reader.textRun (x :: t) acc = acc.reverse := by
        rw [Reader.textRun, if_neg hkind]
      rw [if_neg hkind]
      exact ⟨hrun.symm, hstop h hrun⟩
  | @tag name w w' t u opening opening' edit changes rest ih =>
    have hrun {w t : Text} (h : IsStartTag name w ('>' :: t)) :
        Reader.textRun ('<' :: (name ++ (w ++ '>' :: t))) acc = acc.reverse := by
      rw [Reader.textRun, h.markup]
      rfl
    rw [hrun opening']
    exact ⟨(hrun opening).symm, hstop (.tag opening opening' edit changes rest) (hrun opening)⟩

theorem commentBody (h : Edited E c.rest d.rest) (kind : classify c.rest = .comment)
    (quiet : '<' ∉ (commentBody c).1) :
    (Reader.commentBody d).1 = (Reader.commentBody c).1 ∧
      Edited E (Reader.commentBody c).2.rest (Reader.commentBody d).2.rest := by
  obtain ⟨r, hr⟩ := classify_comment kind
  rw [hr] at h kind
  obtain ⟨u, hu, hmark⟩ := h.cons_inv (by rw [kind]; exact nofun)
  obtain ⟨r', rfl, hbody⟩ := hmark.pass (v := ['!', '-', '-']) (r := r) (by decide)
  have hdrop : c.rest.drop 4 = r := by rw [hr]; rfl
  have hdrop' : d.rest.drop 4 = r' := by rw [hu]; rfl
  unfold Reader.commentBody at quiet ⊢
  rw [hdrop] at quiet ⊢
  rw [hdrop']
  cases hcut : cut? ['-', '-', '>'] r with
  | none =>
    rw [hcut] at quiet
    rw [← List.append_nil r] at hbody
    obtain ⟨s, hs, hend⟩ := hbody.pass quiet
    obtain rfl := hend.nil_iff.2 rfl
    rw [List.append_nil] at hs
    rw [hs, hcut]
    simp only [Cursor.rest_advance, List.drop_length]
    exact ⟨trivial, .nil⟩
  | some cut =>
    obtain ⟨body, s⟩ := cut
    rw [hcut] at quiet
    obtain rfl : r = body ++ ['-', '-', '>'] ++ s := by
      rw [(cut?_eq_some_iff.1 hcut).1, List.append_assoc]
    obtain ⟨s', rfl, hrest⟩ := hbody.pass (by simpa using quiet)
    obtain ⟨s₂, hcut'⟩ := cut?_twin (v := s') hcut (by simp)
    have hlen : 4 + body.length + 3 =
        ('<' :: '!' :: '-' :: '-' :: (body ++ ['-', '-', '>'])).length := by
      simp only [List.length_cons, List.length_append, List.length_nil]
      omega
    rw [hcut']
    dsimp only
    rw [hlen, Cursor.rest_advance_append hr, Cursor.rest_advance_append hu]
    exact ⟨rfl, hrest⟩

theorem not_mem_of_trimmed {s : Text} {p : Position}
    (h : ∀ t q, .text t q ∈ (if (trim s).isEmpty then [] else [.text (trim s) p] : Forest) →
      '<' ∉ t) : '<' ∉ s := by
  intro hx
  have htrim := mem_trim hx (by decide)
  rw [if_neg (by simpa using List.ne_nil_of_mem htrim)] at h
  exact h _ p List.mem_cons_self htrim

section closer
variable {a name tag : Text} (closer : lower ('<' :: '/' :: name) = '<' :: '/' :: tag)
include closer

theorem lower_closer (r : Text) :
    lower (a ++ '<' :: ('/' :: name ++ r)) = (lower a ++ '<' :: '/' :: tag) ++ lower r := by
  have hsplit : a ++ '<' :: ('/' :: name ++ r) = a ++ ('<' :: '/' :: name ++ r) := rfl
  rw [hsplit, lower_append, lower_append, closer, List.append_assoc]

theorem rest_advance_closer {r : Text} (hc : c.rest = a ++ '<' :: ('/' :: name ++ r)) :
    (c.advance ((lower a).length + ('<' :: '/' :: tag).length)).rest = r := by
  have hlen : (lower a).length + ('<' :: '/' :: tag).length = (a ++ '<' :: '/' :: name).length := by
    rw [← closer, length_lower, length_lower, List.length_append]
  rw [hlen]
  exact Cursor.rest_advance_append (by simp [hc])

end closer

theorem rawContent {tag : Text} (h : Edited E c.rest d.rest) (htag : '<' ∉ tag)
    (quiet : ∀ s p, .text s p ∈ (rawContent tag c).1 → '<' ∉ s) :
    Forest.unplaced (Reader.rawContent tag d).1 = Forest.unplaced (Reader.rawContent tag c).1 ∧
      (Reader.rawContent tag d).2.1 = (Reader.rawContent tag c).2.1 ∧
      Edited E (Reader.rawContent tag c).2.2.rest
        (Reader.rawContent tag d).2.2.rest := by
  unfold Reader.rawContent at quiet ⊢
  cases hcut : cut? ('<' :: '/' :: tag) (lower c.rest) with
  | none =>
    simp only [hcut, List.take_length] at quiet
    rw [← List.append_nil c.rest] at h
    obtain ⟨s, hs, hend⟩ := h.pass (not_mem_of_trimmed quiet)
    obtain rfl := hend.nil_iff.2 rfl
    rw [List.append_nil] at hs
    simp only [hs, hcut, Bool.false_eq_true, if_false, Cursor.rest_advance, List.drop_length]
    exact ⟨Forest.unplaced_text _ _ _, trivial, .nil⟩
  | some cut =>
    obtain ⟨body, r⟩ := cut
    obtain ⟨a, s, hc, rfl, hs⟩ := List.map_eq_append_iff.1 (cut?_eq_some_iff.1 hcut).1
    obtain ⟨b, t, rfl, hb, rfl⟩ := List.map_eq_append_iff.1 hs
    obtain ⟨name, rfl, hlow⟩ := closer_of_lower hb
    have hname : '<' ∉ name := fun hm => htag (hlow ▸ List.mem_map_of_mem (f := lowerChar) hm)
    have htake (r : Text) : (a ++ r).take (a.map lowerChar).length = a := by
      rw [List.length_map, List.take_left]
    rw [hc] at h hcut
    simp only [hc, hcut, htake] at quiet
    obtain ⟨u, hu, hcloser⟩ := h.pass (not_mem_of_trimmed quiet)
    obtain ⟨v, rfl, hslash⟩ := hcloser.cons_inv nofun
    obtain ⟨r', rfl, hrest⟩ := hslash.pass (v := '/' :: name) (r := t) (by simpa using hname)
    obtain ⟨s, hcut'⟩ :=
      cut?_twin (v := lower r') (lower_closer hb t ▸ hcut) (by simp [lower])
    rw [← lower_closer hb] at hcut'
    simp only [hc, hu, hcut, hcut', htake, if_true]
    refine ⟨Forest.unplaced_text _ _ _, trivial, recover ?_⟩
    change Edited E (c.advance ((lower a).length + _)).rest (d.advance ((lower a).length + _)).rest
    rw [rest_advance_closer hb hc, rest_advance_closer hb hu]
    exact hrest

end Edited

/-- Two ends of a tag whose attributes are changed from the first to the second. -/
structure EditedEnd (E : Editing) (tag : Text) (e e' : TagEnd) :
    Prop where
  attributes : e'.attributes = E.change tag e.attributes
  selfClosing : e'.selfClosing = e.selfClosing
  rest : Edited E e.cursor.rest e'.cursor.rest

/-- The opening tag of an element is read with its attributes changed. -/
theorem Edited.openingTag {E : Editing} {l : Limits} {c d : Cursor}
    {st su : ReadStats} (h : Edited E c.rest d.rest)
    (kind : classify c.rest = .element) (ho : E.opens c.rest)
    (hu : (attributes l (tagName c.next).2 st 0 []).stats.Unmet)
    (hu' : (attributes l (tagName d.next).2 su 0 []).stats.Unmet) :
    (tagName d.next).1 = (tagName c.next).1 ∧
      EditedEnd E (tagName c.next).1 (attributes l (tagName c.next).2 st 0 [])
        (attributes l (tagName d.next).2 su 0 []) := by
  obtain ⟨name, w, w', r, r', hc, hd, tag⟩ := h.exists_tag kind ho
  obtain ⟨hname, he⟩ := tag_scan tag.opening.letters tag.opening.gap tag.opening.stop
    tag.changes.before hc hu
  obtain ⟨hname', he'⟩ := tag_scan tag.opening'.letters tag.opening'.gap tag.opening'.stop
    tag.changes.after hd hu'
  refine ⟨hname'.trans hname.symm, ?_, ?_, ?_⟩
  · rw [hname, he.attributes, he'.attributes]
    exact tag.changes.table
  · rw [he.selfClosing, he'.selfClosing, closes, closes, tag.head, tag.changes.slash]
  · rw [he.rest, he'.rest]
    exact tag.rest
end MailMarkup.Reader
