import MailMarkup.Document.Reader

/-!
# Canonical forests

A forest is written with a closing tag for every element that needs one and with every attribute
value in double quotes. A forest is canonical when nothing in it would be read as something else.
-/
namespace MailMarkup
open Text Reader

def Attributes.write (as : List (Text × Text)) : Text :=
  as.flatMap fun a => ' ' :: a.1 ++ '=' :: '"' :: a.2 ++ ['"']

/-- The opening tag. -/
def Head.write (h : Head) : Text := '<' :: h.tag ++ Attributes.write h.attributes ++ ['>']

/-- The closing tag. -/
def Head.writeEnd (h : Head) : Text := '<' :: '/' :: h.tag ++ ['>']

mutual

def Node.write : Node → Text
  | .element h cs =>
    if voidTags.contains h.tag then h.write else h.write ++ Forest.write cs ++ h.writeEnd
  | .text t _ => t
  | .comment t _ => "<!--".toList ++ t ++ "-->".toList

def Forest.write : Forest → Text
  | [] => []
  | n :: ns => n.write ++ Forest.write ns

end

section write
variable (h : Head) (cs : Forest) (t : Text) (p : Position)

theorem Node.write_element : (Node.element h cs).write =
    if voidTags.contains h.tag then h.write else h.write ++ Forest.write cs ++ h.writeEnd := rfl

@[simp]
theorem Node.write_text : (Node.text t p).write = t := rfl

theorem Node.write_comment :
    (Node.comment t p).write = "<!--".toList ++ t ++ "-->".toList := rfl

end write

mutual

/-- How many elements lie one inside another. -/
def Node.height : Node → Nat
  | .element _ cs => Forest.height cs + 1
  | .text _ _ => 0
  | .comment _ _ => 0

def Forest.height : Forest → Nat
  | [] => 0
  | n :: ns => max n.height (Forest.height ns)

end

mutual

/-- The greatest number of attributes that one element has. -/
def Node.attributeCount : Node → Nat
  | .element h cs => max h.attributes.length (Forest.attributeCount cs)
  | .text _ _ => 0
  | .comment _ _ => 0

def Forest.attributeCount : Forest → Nat
  | [] => 0
  | n :: ns => max n.attributeCount (Forest.attributeCount ns)

end

mutual

/-- The node without the places where its parts were read. -/
def Node.unplaced : Node → Node
  | .element h cs => .element { h with start := {}, stop := {} } (Forest.unplaced cs)
  | .text t _ => .text t {}
  | .comment t _ => .comment t {}

def Forest.unplaced : Forest → Forest
  | [] => []
  | n :: ns => n.unplaced :: Forest.unplaced ns

end

/-- Without its place, a text that is a node unless it is empty does not depend on it. -/
theorem Forest.unplaced_text (t : Text) (p q : Position) :
    Forest.unplaced (if t.isEmpty then [] else [.text t p]) =
      Forest.unplaced (if t.isEmpty then [] else [.text t q]) := by
  split <;> rfl

mutual

/-- The node with every element in it closed. -/
def Node.closedUp : Node → Node
  | .element h cs => .element { h with closed := true } (Forest.closedUp cs)
  | .text t p => .text t p
  | .comment t p => .comment t p

def Forest.closedUp : Forest → Forest
  | [] => []
  | n :: ns => n.closedUp :: Forest.closedUp ns

end

def Node.isText : Node → Bool
  | .text _ _ => true
  | _ => false

/-- A name in lower case that a tag can have. -/
def IsTag : Text → Prop
  | [] => False
  | c :: t =>
    isLower c = true ∧ ∀ x ∈ t, isLower x = true ∨ isDigit x = true ∨ x ∈ [':', '.', '_', '-']

instance (t : Text) : Decidable (IsTag t) :=
  match t with
  | [] => .isFalse id
  | _ :: t => @instDecidableAnd _ _ _ (List.decidableBAll _ t)

/-- A name in lower case that an attribute can have. -/
def IsAttributeName (t : Text) : Prop :=
  t ≠ [] ∧
    ∀ c ∈ t, isUpper c = false ∧ isBlank c = false ∧ c ∉ ['=', '>', '/', '<', '"', '\'']

instance (t : Text) : Decidable (IsAttributeName t) :=
  @instDecidableAnd _ _ _ (List.decidableBAll _ t)

def IsTrimmed (t : Text) : Prop := t ≠ [] ∧ trim t = t

instance (t : Text) : Decidable (IsTrimmed t) := inferInstanceAs (Decidable (_ ∧ _))

structure Head.Canonical (h : Head) : Prop where
  tag : IsTag h.tag
  names : ∀ a ∈ h.attributes, IsAttributeName a.1
  distinct : (h.attributes.map Prod.fst).Nodup
  values : ∀ a ∈ h.attributes, '"' ∉ a.2

instance (h : Head) : Decidable h.Canonical :=
  decidable_of_iff
    (IsTag h.tag ∧ (∀ a ∈ h.attributes, IsAttributeName a.1) ∧
      (h.attributes.map Prod.fst).Nodup ∧ ∀ a ∈ h.attributes, '"' ∉ a.2)
    ⟨fun ⟨tag, names, distinct, values⟩ => ⟨tag, names, distinct, values⟩,
      fun h => ⟨h.tag, h.names, h.distinct, h.values⟩⟩

/-- The content of a raw element: nothing, or one text that does not look like its closing tag. -/
inductive RawContent (tag : Text) : Forest → Prop where
  | empty : RawContent tag []
  | text {t : Text} {p : Position} (trimmed : IsTrimmed t)
      (content : ¬ ('<' :: '/' :: tag) <:+: lower t) : RawContent tag [.text t p]

inductive Forest.Canonical : Forest → Prop where
  | nil : Canonical []
  | text {t : Text} {p : Position} {ns : Forest} (trimmed : IsTrimmed t) (content : '<' ∉ t)
      (next : ns.head?.any Node.isText = false) (rest : Canonical ns) : Canonical (.text t p :: ns)
  | comment {t : Text} {p : Position} {ns : Forest} (content : ¬ "-->".toList <:+: t)
      (rest : Canonical ns) : Canonical (.comment t p :: ns)
  | void {h : Head} {ns : Forest} (head : h.Canonical) (void : h.tag ∈ voidTags)
      (rest : Canonical ns) : Canonical (.element h [] :: ns)
  | raw {h : Head} {cs ns : Forest} (head : h.Canonical) (raw : h.tag ∈ rawTags)
      (content : RawContent h.tag cs) (rest : Canonical ns) : Canonical (.element h cs :: ns)
  | element {h : Head} {cs ns : Forest} (head : h.Canonical) (void : h.tag ∉ voidTags)
      (raw : h.tag ∉ rawTags) (children : Canonical cs) (rest : Canonical ns) :
      Canonical (.element h cs :: ns)

end MailMarkup
