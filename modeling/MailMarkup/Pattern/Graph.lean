import MailMarkup.Pattern.Expr

/-!
# Expressions as graphs

An expression becomes a graph of nodes, in which a node reads a character, tests the place, notes
it, or has two ways on, the preferred one first. The nodes are laid out from the end of the
expression to its start, so that each knows where it leads. Counted repetitions are written out.
-/
namespace MailMarkup.Pattern

inductive Node where
  | finish
  | read (set : CharSet) (next : Nat)
  | test (e : Edge) (next : Nat)
  | note (slot : Nat) (next : Nat)
  | fork (first second : Nat)
  deriving DecidableEq, Repr, Inhabited

namespace Graph

def add (nodes : Array Node) (n : Node) : Nat × Array Node := (nodes.size, nodes.push n)

/-- A fork between going on with the body and leaving it. -/
def choice (greedy : Bool) (body leave : Nat) : Node :=
  if greedy then .fork body leave else .fork leave body

/-- Lays out something that leads to a node, and gives the node where it starts. -/
abbrev Layout := Nat → Array Node → Nat × Array Node

def times (body : Layout) : Nat → Layout
  | 0, next, nodes => (next, nodes)
  | n + 1, next, nodes =>
    let (start, nodes) := body next nodes
    times body n start nodes

/-- The body at most `n` times; `leave` is where it may be left, `next` where it leads now. -/
def upTo (body : Layout) (greedy : Bool) (leave : Nat) : Nat → Layout
  | 0, next, nodes => (next, nodes)
  | n + 1, next, nodes =>
    let (start, nodes) := body next nodes
    let (start, nodes) := add nodes (choice greedy start leave)
    upTo body greedy leave n start nodes

/-- The body and after it a fork that leads back or on: where the body starts, and the fork. -/
def loop (body : Layout) (greedy : Bool) (next : Nat) (nodes : Array Node) :
    Nat × Nat × Array Node :=
  let (again, nodes) := add nodes .finish
  let (start, nodes) := body again nodes
  (start, again, nodes.setIfInBounds again (choice greedy start next))

/-- Lays out an expression. Group `i` notes its start in slot `2 * i` and its end in the next. A
loop whose body reads something can be entered at its fork; any other loop is entered at a fork of
its own, since the search has to see whether it comes back to a fork without having read
anything. -/
def layout : Expr → Layout
  | .empty, next, nodes => (next, nodes)
  | .one set, next, nodes => add nodes (.read set next)
  | .edge e, next, nodes => add nodes (.test e next)
  | .both a b, next, nodes =>
    let (start, nodes) := layout b next nodes
    layout a start nodes
  | .either a b, next, nodes =>
    let (first, nodes) := layout a next nodes
    let (second, nodes) := layout b next nodes
    add nodes (.fork first second)
  | .group i a, next, nodes =>
    let (stop, nodes) := add nodes (.note (2 * i + 1) next)
    let (start, nodes) := layout a stop nodes
    add nodes (.note (2 * i) start)
  | .repeated a 0 none greedy, next, nodes =>
    let (start, again, nodes) := loop (layout a) greedy next nodes
    if a.readsSome then (again, nodes) else add nodes (choice greedy start next)
  | .repeated a (n + 1) none greedy, next, nodes =>
    let (start, _, nodes) := loop (layout a) greedy next nodes
    times (layout a) n start nodes
  | .repeated a least (some extra) greedy, next, nodes =>
    let (start, nodes) := upTo (layout a) greedy next extra next nodes
    times (layout a) least start nodes

end Graph

/-- The nodes of an expression, node 0 being its end, and the node where it starts. -/
def Expr.graph (e : Expr) : Nat × Array Node := Graph.layout e 0 #[.finish]

end MailMarkup.Pattern
