import MailMarkup.Proofs.Document.Styles
import MailMarkup.Text.Word

/-!
# Plain forests

In the text of a plain forest an angle bracket says what it seems to say: `<` stands nowhere but
where markup starts, and `>` nowhere in markup but at its end. Names of tags are letters and digits.
That is enough for a rule on text to find the tags, but not for the text to be read back: a name may
start with a digit, and a raw text may be empty.

Changing the heads of a forest changes the tags in its text and nothing else.
-/
namespace MailMarkup
open Text Reader

/-- A text in which no angle bracket stands. -/
def IsUnbracketed (t : Text) : Prop := '<' ∉ t ∧ '>' ∉ t

instance (t : Text) : Decidable (IsUnbracketed t) := inferInstanceAs (Decidable (_ ∧ _))

structure Head.Plain (h : Head) : Prop where
  tag : ∀ x ∈ h.tag, isLower x = true ∨ isDigit x = true
  names : ∀ a ∈ h.attributes, IsAttributeName a.1
  distinct : (h.attributes.map Prod.fst).Nodup
  values : ∀ a ∈ h.attributes, IsQuotable a.2

instance (h : Head) : Decidable h.Plain :=
  letI : Decidable (∀ x ∈ h.tag, isLower x = true ∨ isDigit x = true) :=
    List.decidableBAll _ h.tag
  decidable_of_iff
    ((∀ x ∈ h.tag, isLower x = true ∨ isDigit x = true) ∧
      (∀ a ∈ h.attributes, IsAttributeName a.1) ∧ (h.attributes.map Prod.fst).Nodup ∧
      ∀ a ∈ h.attributes, IsQuotable a.2)
    ⟨fun ⟨tag, names, distinct, values⟩ => ⟨tag, names, distinct, values⟩,
      fun h => ⟨h.tag, h.names, h.distinct, h.values⟩⟩

section written
variable {h : Head} {as : List (Text × Text)}

theorem isWord_and_fold_eq {x : Char} (hx : isLower x = true ∨ isDigit x = true) :
    isWord x = true ∧ lowerChar x = x ∧ fold x = x := by
  have hrange : x.toNat < 128 ∧ isUpper x = false := by
    have hnat : 97 ≤ x.toNat ∧ x.toNat ≤ 122 ∨ 48 ≤ x.toNat ∧ x.toNat ≤ 57 := by
      simpa [isLower, isDigit, Char.le_def, UInt32.le_iff_toNat_le] using hx
    rw [← Bool.not_eq_true, isUpper_iff]
    omega
  have hlower : lowerChar x = x := by simp [lowerChar, hrange.2]
  refine ⟨?_, hlower, by rw [fold, if_pos hrange.1, hlower]⟩
  rcases hx with hx | hx <;> simp [isWord, hrange.1, isLetter, hx]

theorem Head.Plain.isWord (hh : h.Plain) : ∀ x ∈ h.tag, isWord x = true :=
  fun x hx => (isWord_and_fold_eq (hh.tag x hx)).1

theorem Head.Plain.lower_tag (hh : h.Plain) : lower h.tag = h.tag :=
  (List.map_congr_left fun x hx => (isWord_and_fold_eq (hh.tag x hx)).2.1).trans (List.map_id _)

theorem Head.Plain.fold_tag (hh : h.Plain) : h.tag.map fold = h.tag :=
  (List.map_congr_left fun x hx => (isWord_and_fold_eq (hh.tag x hx)).2.2).trans (List.map_id _)

private theorem unbracketed_attributes (names : ∀ a ∈ as, IsAttributeName a.1)
    (values : ∀ a ∈ as, IsQuotable a.2) : IsUnbracketed (Attributes.write as) := by
  have hparts : ∀ x ∈ Attributes.write as, x ∉ ['<', '>'] := by
    intro x hx
    obtain ⟨a, ha, hx⟩ := List.mem_flatMap.1 hx
    simp only [List.cons_append, List.mem_cons, List.mem_append, List.not_mem_nil, or_false] at hx
    rcases hx with rfl | (hx | rfl | rfl | hx) | rfl
    · decide
    · have := ((names a ha).2 x hx).2.2
      simp_all
    · decide
    · decide
    · have := values a ha x hx
      simp_all
    · decide
  exact ⟨fun hx => hparts _ hx (by decide), fun hx => hparts _ hx (by decide)⟩

/-- A written tag has one opening bracket, at its start, and one closing bracket, at its end. -/
theorem Head.Plain.unbracketed (hh : h.Plain) :
    IsUnbracketed h.tag ∧ IsUnbracketed (Attributes.write h.attributes) := by
  refine ⟨⟨fun hx => ?_, fun hx => ?_⟩, unbracketed_attributes hh.names hh.values⟩
  · exact absurd (hh.isWord _ hx) (by decide)
  · exact absurd (hh.isWord _ hx) (by decide)

theorem any_isWord_attributes (as : List (Text × Text)) (r : Text) :
    (Attributes.write as ++ '>' :: r).head?.any Text.isWord = false := by
  cases as <;> rfl

theorem getLast?_attributes (as : List (Text × Text)) :
    (Attributes.write as).getLast? ≠ some '/' := by
  rcases List.eq_nil_or_concat as with rfl | ⟨as, a, rfl⟩
  · exact nofun
  · have hend : Attributes.write (as.concat a) =
        Attributes.write as ++ (' ' :: a.1 ++ '=' :: '"' :: a.2) ++ ['"'] := by
      simp [Attributes.write]
    rw [hend, List.getLast?_concat]
    decide

end written

/-- What a plain raw element holds: one text at most. -/
def PlainContent : Forest → Prop
  | [] => True
  | [.text t _] => trim t = t ∧ IsUnbracketed t
  | _ => False

instance : (f : Forest) → Decidable (PlainContent f)
  | [] => .isTrue trivial
  | [.text _ _] => inferInstanceAs (Decidable (_ ∧ _))
  | [.element _ _] | [.comment _ _] | _ :: _ :: _ => .isFalse (by simp [PlainContent])

mutual

def Node.Plain : Node → Prop
  | .element h cs =>
    h.Plain ∧
      if h.tag ∈ voidTags then cs = []
      else if h.tag ∈ rawTags then PlainContent cs
      else Forest.Plain cs
  | .text t _ => IsTrimmed t ∧ '<' ∉ t
  | .comment t _ => IsUnbracketed t

def Forest.Plain : Forest → Prop
  | [] => True
  | n :: ns => n.Plain ∧ (n.isText = true → ns.head?.any Node.isText = false) ∧ Forest.Plain ns

end

mutual

def Node.decidablePlain : (n : Node) → Decidable n.Plain
  | .element h cs =>
    have := Forest.decidablePlain cs
    inferInstanceAs (Decidable (h.Plain ∧ ite (h.tag ∈ voidTags) (cs = []) _))
  | .text _ _ | .comment _ _ => inferInstanceAs (Decidable (_ ∧ _))

def Forest.decidablePlain : (f : Forest) → Decidable f.Plain
  | [] => .isTrue trivial
  | n :: ns =>
    have := n.decidablePlain
    have := Forest.decidablePlain ns
    inferInstanceAs (Decidable (_ ∧ _ ∧ _))

end

instance (f : Forest) : Decidable f.Plain := f.decidablePlain

mutual

def Node.writeBy (opening closing : Head → Text) : Node → Text
  | .element h cs =>
    if voidTags.contains h.tag then opening h
    else opening h ++ Forest.writeBy opening closing cs ++ closing h
  | .text t _ => t
  | .comment t _ => "<!--".toList ++ t ++ "-->".toList

/-- The text of a forest with other tags in it. -/
def Forest.writeBy (opening closing : Head → Text) : Forest → Text
  | [] => []
  | n :: ns => n.writeBy opening closing ++ Forest.writeBy opening closing ns

end

theorem Node.writeBy_element (opening closing : Head → Text) (h : Head) (cs : Forest) :
    (Node.element h cs).writeBy opening closing =
      if voidTags.contains h.tag then opening h
      else opening h ++ Forest.writeBy opening closing cs ++ closing h := rfl

mutual

def Node.mapHeads (g : Head → Head) : Node → Node
  | .element h cs => .element (g h) (Forest.mapHeads g cs)
  | .text t p => .text t p
  | .comment t p => .comment t p

def Forest.mapHeads (g : Head → Head) : Forest → Forest
  | [] => []
  | n :: ns => n.mapHeads g :: Forest.mapHeads g ns

end

/-- A change of heads that leaves alone the elements that are read in a way of their own, and makes
no others. -/
structure Head.Change (g : Head → Head) : Prop where
  void : ∀ h : Head, h.tag ∈ voidTags → g h = h
  raw : ∀ h : Head, h.tag ∈ rawTags → g h = h
  others : ∀ h : Head, h.tag ∉ voidTags → h.tag ∉ rawTags →
    (g h).tag ∉ voidTags ∧ (g h).tag ∉ rawTags

section mapHeads
variable {g : Head → Head}

private theorem Head.Change.void_iff (hg : Head.Change g) (h : Head) :
    (g h).tag ∈ voidTags ↔ h.tag ∈ voidTags := by
  by_cases hv : h.tag ∈ voidTags
  · rw [hg.void h hv]
  by_cases hr : h.tag ∈ rawTags
  · rw [hg.raw h hr]
  · exact ⟨fun hv' => absurd hv' (hg.others h hv hr).1, fun hv' => absurd hv' hv⟩

mutual

theorem Node.write_mapHeads (hg : Head.Change g) : ∀ n : Node,
    (n.mapHeads g).write = n.writeBy (fun h => (g h).write) fun h => (g h).writeEnd
  | .element h cs => by
    simp only [Node.mapHeads, Node.write_element, Node.writeBy_element, List.contains_iff_mem,
      hg.void_iff h, Forest.write_mapHeads hg cs]
  | .text _ _ => rfl
  | .comment _ _ => rfl

theorem Forest.write_mapHeads (hg : Head.Change g) : ∀ f : Forest,
    (f.mapHeads g).write = f.writeBy (fun h => (g h).write) fun h => (g h).writeEnd
  | [] => rfl
  | n :: ns => by
    simp only [Forest.mapHeads, Forest.write, Forest.writeBy, Node.write_mapHeads hg n,
      Forest.write_mapHeads hg ns]

end

mutual

theorem Node.write_eq_writeBy : ∀ n : Node, n.write = n.writeBy Head.write Head.writeEnd
  | .element h cs => by rw [Node.write_element, Node.writeBy_element, Forest.write_eq_writeBy cs]
  | .text _ _ => rfl
  | .comment _ _ => rfl

theorem Forest.write_eq_writeBy : ∀ f : Forest, f.write = f.writeBy Head.write Head.writeEnd
  | [] => rfl
  | n :: ns => by
    rw [Forest.write, Forest.writeBy, Node.write_eq_writeBy n, Forest.write_eq_writeBy ns]

end

private theorem Forest.any_isText_mapHeads (f : Forest) :
    (f.mapHeads g).head?.any Node.isText = f.head?.any Node.isText := by
  rcases f with - | ⟨(_ | _ | _), ns⟩ <;> rfl

theorem RawContent.mapHeads {tag : Text} {f : Forest} (h : RawContent tag f) :
    RawContent tag (f.mapHeads g) := by
  cases h with
  | empty => exact .empty
  | text trimmed content => exact .text trimmed content

theorem Forest.Canonical.mapHeads {f : Forest} (hc : f.Canonical) (hf : f.Plain)
    (hg : Head.Change g) (head : ∀ h : Head, h.Canonical → h.Plain → (g h).Canonical) :
    (f.mapHeads g).Canonical := by
  induction hc with
  | nil => exact .nil
  | text trimmed content next _ ih =>
    obtain ⟨-, -, hns⟩ := hf
    exact .text trimmed content ((Forest.any_isText_mapHeads _).trans next) (ih hns)
  | comment content _ ih => exact .comment content (ih hf.2.2)
  | void hh hv _ ih =>
    obtain ⟨-, -, hns⟩ := hf
    rw [Forest.mapHeads, Node.mapHeads, hg.void _ hv]
    exact .void hh hv (ih hns)
  | raw hh hr content _ ih =>
    obtain ⟨-, -, hns⟩ := hf
    rw [Forest.mapHeads, Node.mapHeads, hg.raw _ hr]
    exact .raw hh hr content.mapHeads (ih hns)
  | @element h cs ns hh hv hr _ _ ihc ih =>
    obtain ⟨⟨hplain, hcs⟩, -, hns⟩ := hf
    rw [if_neg hv, if_neg hr] at hcs
    obtain ⟨hv', hr'⟩ := hg.others h hv hr
    exact .element (head h hh hplain) hv' hr' (ihc hcs) (ih hns)

end mapHeads
end MailMarkup
