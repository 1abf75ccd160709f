import MailMarkup.Pattern.Graph

/-!
# Automata

Between two characters a search passes through nodes that read nothing. An automaton has these
passages worked out beforehand: from the start, and from behind each node that reads, it knows the
ways on in the order of preference. A way leads to a node that reads or to the end, under conditions
on the place, and notes the place in some slots.
-/
namespace MailMarkup.Pattern

/-- A way on: the conditions on the place, the slots that note it (the latest first), and the node
it leads to, or `none` for the end of the expression. -/
structure Way where
  edges : List Edge
  slots : List Nat
  goal : Option Nat
  deriving DecidableEq, Repr

/-- What a node reads, and the ways on from behind it. -/
structure Step where
  set : CharSet
  ways : List Way
  deriving DecidableEq, Repr, Inhabited

namespace Way

/-- The nodes passed so far, without conditions as bits of a number and else with them, and the ways
found, the last first. -/
structure Passed where
  free : Nat := 0
  under : List (Nat × List Edge) := []
  found : List Way := []

def Passed.has (p : Passed) (n : Nat) (edges : List Edge) : Bool :=
  p.free.testBit n || !edges.isEmpty && p.under.any fun (m, es) => m == n && es.all edges.contains

def Passed.insert (p : Passed) (n : Nat) (edges : List Edge) : Passed :=
  if edges.isEmpty then { p with free := p.free ||| (1 <<< n) }
  else { p with under := (n, edges) :: p.under }

/-- Adds the ways from node `n`, the preferred ones first. A node that has been passed is left out:
what lies behind it has been found, or will be when the search returns to where it was passed. No
path passes a node twice, so `fuel` need not exceed the number of nodes. -/
def explore (nodes : Array Node) : (fuel n : Nat) → List Edge → List Nat → Passed → Passed
  | 0, _, _, _, p => p
  | fuel + 1, n, edges, slots, p =>
    if p.has n edges then p
    else
      let p := p.insert n edges
      match nodes[n]? with
      | none => p
      | some .finish => { p with found := ⟨edges, slots, none⟩ :: p.found }
      | some (.read _ _) => { p with found := ⟨edges, slots, some n⟩ :: p.found }
      | some (.test e next) =>
        explore nodes fuel next (if edges.contains e then edges else e :: edges) slots p
      | some (.note slot next) => explore nodes fuel next edges (slot :: slots) p
      | some (.fork a b) =>
        explore nodes fuel b edges slots (explore nodes fuel a edges slots p)

def allFrom (nodes : Array Node) (n : Nat) : List Way :=
  (explore nodes (nodes.size + 1) n [] [] {}).found.reverse

end Way

/-- The step of each node that reads, the ways from the start, and the characters that a match can
start with, unless it can be empty. -/
structure Automaton where
  steps : Array Step
  start : List Way
  first : Option CharSet
  deriving DecidableEq, Repr, Inhabited

namespace Automaton

/-- What is read at a way's goal. -/
def goalSet? (steps : Array Step) (w : Way) : Option CharSet :=
  w.goal.bind fun n => (steps[n]?).map Step.set

/-- All that can be read at the goals of some ways, if none of them leads to the end. -/
def firstSet (steps : Array Step) (ws : List Way) : Option CharSet :=
  ws.foldl (fun s w => s.bind fun s => (goalSet? steps w).map s.union) (some .none)

def ofExpr (e : Expr) : Automaton :=
  let (start, nodes) := e.graph
  let steps := nodes.map fun
    | .read set next => ⟨set, Way.allFrom nodes next⟩
    | _ => ⟨.none, []⟩
  let ways := Way.allFrom nodes start
  ⟨steps, ways, firstSet steps ways⟩

/-- Whether a match can start with a character, as far as the character tells. -/
def mayStart (a : Automaton) (c : Char) : Bool := a.first.all (·.has c)

end Automaton
end MailMarkup.Pattern
