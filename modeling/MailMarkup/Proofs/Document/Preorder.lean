import MailMarkup.Document.Node

/-!
# Document order

The nodes of a forest in document order, by recursion over the forest. What is folded over a forest
is folded over that list, so the listings that the library computes are this one.
-/
namespace MailMarkup

mutual

/-- A node and all nodes inside it, in document order. -/
def Node.family : Node → List Node
  | .element h cs => .element h cs :: Forest.family cs
  | .text t p => [.text t p]
  | .comment t p => [.comment t p]

/-- All nodes of a forest, in document order. -/
def Forest.family : Forest → List Node
  | [] => []
  | n :: ns => n.family ++ Forest.family ns

end

theorem Node.family_of_leaf {n : Node} (h : n.element? = none) : n.family = [n] := by
  cases n with
  | element head cs => exact absurd h nofun
  | text t p => rfl
  | comment t p => rfl

theorem Node.eq_of_element? {n : Node} {e : Element} (h : n.element? = some e) :
    n = .element e.toHead e.children := by
  cases n with
  | element head cs =>
    obtain rfl := Option.some.inj h
    rfl
  | text t p => exact absurd h nofun
  | comment t p => exact absurd h nofun

section Fold
variable {β γ : Type} {f : β → Nat → Node → β} {g : γ → Node → γ} {φ : β → γ}

mutual

theorem Node.fold_eq_foldl (h : ∀ b d n, φ (f b d n) = g (φ b) n) (b : β) (d : Nat) :
    (n : Node) → φ (n.fold f b d) = n.family.foldl g (φ b)
  | .element head cs => by
    rw [Node.fold, Node.family, Forest.fold_eq_foldl h, h, List.foldl_cons]
  | .text t p => h b d (.text t p)
  | .comment t p => h b d (.comment t p)

theorem Forest.fold_eq_foldl (h : ∀ b d n, φ (f b d n) = g (φ b) n) (b : β) (d : Nat) :
    (ns : Forest) → φ (ns.fold f b d) = ns.family.foldl g (φ b)
  | [] => rfl
  | n :: ns => by
    rw [Forest.fold, Forest.family, Forest.fold_eq_foldl h, Node.fold_eq_foldl h,
      List.foldl_append]

end

end Fold

namespace Forest

theorem family_append (ms ns : Forest) : family (ms ++ ns) = family ms ++ family ns := by
  induction ms with
  | nil => rfl
  | cons m ms ih =>
    rw [List.cons_append, family, family, ih, List.append_assoc]

theorem map_snd_preorder (ns : Forest) : ns.preorder.map Prod.snd = ns.family := by
  have h := fold_eq_foldl (φ := List.map Prod.snd) (g := fun acc n => n :: acc)
    (f := fun acc d n => (d, n) :: acc) (fun _ _ _ => rfl) [] 0 ns
  rw [preorder, List.map_reverse, h, List.foldl_flip_cons_eq_append']
  simp

private theorem foldl_element? (l : List Node) (acc : List Element) :
    l.foldl (fun acc n => match n.element? with
      | some e => e :: acc
      | none => acc) acc = (l.filterMap Node.element?).reverse ++ acc := by
  induction l generalizing acc with
  | nil => rfl
  | cons n l ih =>
    rw [List.foldl_cons, ih, List.filterMap_cons]
    cases n.element? <;> simp

theorem elements_eq (ns : Forest) : ns.elements = ns.family.filterMap Node.element? := by
  have h := fold_eq_foldl (φ := id) (g := fun acc n => match n.element? with
    | some e => e :: acc
    | none => acc) (fun _ _ _ => rfl) [] 0 ns
  simp only [foldl_element?, id, List.append_nil] at h
  exact (congrArg List.reverse h).trans (List.reverse_reverse _)

end Forest
end MailMarkup
