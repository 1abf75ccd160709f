import MailMarkup.Text.Cursor

/-!
# Document trees

A document is a forest of elements, texts and comments, each with the place where it was read.
-/
namespace MailMarkup

/-- An element without its children. Names are in lower case, attributes in source order, and
`closed` says that the element was closed by its own tag, closed itself or is void. -/
structure Head where
  tag : Text
  attributes : List (Text × Text)
  start : Position
  stop : Position
  closed : Bool
  deriving DecidableEq, Repr, Inhabited

inductive Node where
  | element (head : Head) (children : List Node)
  | text (content : Text) (start : Position)
  | comment (content : Text) (start : Position)
  deriving Repr, Inhabited

abbrev Forest := List Node

structure Element extends Head where
  children : Forest
  deriving Repr, Inhabited

namespace Element

def attribute? (e : Element) (name : Text) : Option Text :=
  (e.attributes.find? (·.1 == name)).map Prod.snd

def hasAttribute (e : Element) (name : Text) : Bool := e.attributes.any (·.1 == name)

end Element

namespace Node

def start : Node → Position
  | .element h _ => h.start
  | .text _ p => p
  | .comment _ p => p

def children : Node → Forest
  | .element _ cs => cs
  | _ => []

def element? : Node → Option Element
  | .element h cs => some ⟨h, cs⟩
  | _ => none

end Node

mutual

/-- Folds over the nodes of a forest in document order, parents before children; `f` also gets
the number of elements a node lies in. -/
def Node.fold {β : Type} (f : β → Nat → Node → β) (b : β) (depth : Nat) : Node → β
  | .element h cs => Forest.fold f (f b depth (.element h cs)) (depth + 1) cs
  | .text t p => f b depth (.text t p)
  | .comment t p => f b depth (.comment t p)

def Forest.fold {β : Type} (f : β → Nat → Node → β) (b : β) (depth : Nat) : Forest → β
  | [] => b
  | n :: ns => Forest.fold f (Node.fold f b depth n) depth ns

end

mutual

def Node.size : Node → Nat
  | .element _ cs => Forest.size cs + 1
  | .text _ _ => 1
  | .comment _ _ => 1

def Forest.size : Forest → Nat
  | [] => 0
  | n :: ns => n.size + Forest.size ns

end

theorem Node.size_pos : (n : Node) → 0 < n.size
  | .element _ _ => Nat.succ_pos _
  | .text _ _ => Nat.one_pos
  | .comment _ _ => Nat.one_pos

namespace Forest

/-- Every node with its depth, in document order. -/
def preorder (ns : Forest) : List (Nat × Node) :=
  (ns.fold (fun acc d n => (d, n) :: acc) [] 0).reverse

def elements (ns : Forest) : List Element :=
  (ns.fold (fun acc _ n => match n.element? with
    | some e => e :: acc
    | none => acc) []  0).reverse

end Forest

namespace Element

def childElements (e : Element) : List Element := e.children.filterMap Node.element?

/-- The texts inside an element, with a space between them. -/
def textContent (e : Element) : Text :=
  Text.join [' '] <| (Forest.preorder e.children).filterMap fun
    | (_, .text t _) => some t
    | _ => none

end Element
end MailMarkup
