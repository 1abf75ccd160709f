import Mathlib.Data.List.Basic
import MailMarkup.Proofs.Document.Preorder

/-!
# Elements and what they lie in

Every element of a forest with the names of the elements that it lies in. The number of these is the
depth that the library lists with the element.
-/
namespace MailMarkup

mutual

/-- The elements of a node in document order, each with the names of those it lies in, innermost
first, where `names` are those of the elements around the node. -/
def Node.lineages (names : List Text) : Node → List (List Text × Element)
  | .element h cs => (names, ⟨h, cs⟩) :: Forest.lineages (h.tag :: names) cs
  | .text _ _ => []
  | .comment _ _ => []

def Forest.lineages (names : List Text) : Forest → List (List Text × Element)
  | [] => []
  | n :: ns => n.lineages names ++ Forest.lineages names ns

end

theorem Node.lineages_of_leaf {n : Node} (h : n.element? = none) (names : List Text) :
    n.lineages names = [] := by
  cases n with
  | element head cs => exact absurd h nofun
  | text t p => rfl
  | comment t p => rfl

/-- An element as the node that it is. -/
def Element.node (e : Element) : Node := .element e.toHead e.children

mutual

theorem Node.suffix_of_mem_lineages {names : List Text} {p : List Text × Element} : (n : Node) →
    p ∈ n.lineages names → names <:+ p.1
  | .element h cs, hp => by
    rcases List.mem_cons.1 hp with rfl | hp
    · exact List.suffix_refl names
    · exact (List.suffix_cons h.tag names).trans (Forest.suffix_of_mem_lineages cs hp)
  | .text _ _, hp => absurd hp List.not_mem_nil
  | .comment _ _, hp => absurd hp List.not_mem_nil

theorem Forest.suffix_of_mem_lineages {names : List Text} {p : List Text × Element} :
    (ns : Forest) → p ∈ Forest.lineages names ns → names <:+ p.1
  | [], hp => absurd hp List.not_mem_nil
  | n :: ns, hp =>
    (List.mem_append.1 hp).elim n.suffix_of_mem_lineages (Forest.suffix_of_mem_lineages ns)

end

mutual

theorem Node.mem_lineages_trans {names : List Text} {p q : List Text × Element}
    (hq : q ∈ p.2.node.lineages p.1) : (n : Node) → p ∈ n.lineages names → q ∈ n.lineages names
  | .element h cs, hp => by
    rcases List.mem_cons.1 hp with rfl | hp
    · exact hq
    · exact List.mem_cons_of_mem _ (Forest.mem_lineages_trans hq cs hp)
  | .text _ _, hp => absurd hp List.not_mem_nil
  | .comment _ _, hp => absurd hp List.not_mem_nil

theorem Forest.mem_lineages_trans {names : List Text} {p q : List Text × Element}
    (hq : q ∈ p.2.node.lineages p.1) : (ns : Forest) → p ∈ Forest.lineages names ns →
      q ∈ Forest.lineages names ns
  | [], hp => absurd hp List.not_mem_nil
  | n :: ns, hp => by
    rcases List.mem_append.1 hp with hp | hp
    · exact List.mem_append_left _ (n.mem_lineages_trans hq hp)
    · exact List.mem_append_right _ (Forest.mem_lineages_trans hq ns hp)

end

mutual

/-- What lies around a node comes behind what lies around its elements. -/
theorem Node.lineages_outer (names outer : List Text) : (n : Node) →
    n.lineages (names ++ outer) = (n.lineages names).map fun p => (p.1 ++ outer, p.2)
  | .element h cs =>
    congrArg (_ :: ·) (Forest.lineages_outer (h.tag :: names) outer cs)
  | .text _ _ => rfl
  | .comment _ _ => rfl

theorem Forest.lineages_outer (names outer : List Text) : (ns : Forest) →
    Forest.lineages (names ++ outer) ns =
      (Forest.lineages names ns).map fun p => (p.1 ++ outer, p.2)
  | [] => rfl
  | n :: ns => by
    rw [Forest.lineages, n.lineages_outer, Forest.lineages_outer names outer ns, Forest.lineages,
      List.map_append]

end

/-- A node with its depth, if it is an element. -/
def Node.element?At (p : Nat × Node) : Option (Nat × Element) := p.2.element?.map (p.1, ·)

mutual

private theorem Node.foldElements (acc : List (Nat × Node)) (names : List Text) : (n : Node) →
    (n.fold (fun acc d n => (d, n) :: acc) acc names.length).filterMap Node.element?At =
      ((n.lineages names).map fun p => (p.1.length, p.2)).reverse ++
        acc.filterMap Node.element?At
  | .element h cs => by
    have hcs := Forest.foldElements ((names.length, .element h cs) :: acc) (h.tag :: names) cs
    rw [List.length_cons] at hcs
    rw [Node.fold, hcs, Node.lineages, List.map_cons, List.reverse_cons, List.append_assoc]
    rfl
  | .text _ _ => rfl
  | .comment _ _ => rfl

private theorem Forest.foldElements (acc : List (Nat × Node)) (names : List Text) :
    (ns : Forest) →
    (ns.fold (fun acc d n => (d, n) :: acc) acc names.length).filterMap Node.element?At =
      ((ns.lineages names).map fun p => (p.1.length, p.2)).reverse ++
        acc.filterMap Node.element?At
  | [] => rfl
  | n :: ns => by
    rw [Forest.fold, Forest.foldElements _ names ns, Node.foldElements acc names n,
      Forest.lineages, List.map_append, List.reverse_append, List.append_assoc]

end

namespace Forest

/-- The elements of a forest with their depths, as the library lists them. -/
theorem filterMap_preorder (ns : Forest) :
    ns.preorder.filterMap Node.element?At = (ns.lineages []).map fun p => (p.1.length, p.2) := by
  rw [preorder, List.filterMap_reverse]
  exact (congrArg List.reverse (foldElements [] [] ns)).trans (by simp)

variable {names : List Text} {ms ns : Forest}

theorem lineages_append : lineages names (ms ++ ns) = lineages names ms ++ lineages names ns := by
  induction ms with
  | nil => rfl
  | cons m ms ih => rw [List.cons_append, lineages, lineages, ih, List.append_assoc]

theorem lineages_singleton (n : Node) : lineages names [n] = n.lineages names :=
  List.append_nil _

theorem mem_lineages_reverse {p : List Text × Element} :
    p ∈ lineages names ns.reverse ↔ p ∈ lineages names ns := by
  induction ns with
  | nil => exact Iff.rfl
  | cons n ns ih =>
    rw [List.reverse_cons, lineages_append, lineages_singleton, lineages, List.mem_append, ih,
      List.mem_append, or_comm]

end Forest
end MailMarkup
