import MailMarkup.Pattern.Automaton
import MailMarkup.Text.Cursor

/-!
# Searching

A search reads a text once. At each place it has threads, each a start of a match and a node that
can read the next character, the preferred ones first, and of two with one node only the first. A
thread that reaches the end of the expression is a match and ends all threads it is preferred to. As
long as there is no match, new threads start, so a match that starts earlier is preferred.
-/
namespace MailMarkup

/-- A match: where it starts and ends, and the places noted on the way, the latest first. -/
structure Match where
  start : Cursor
  stop : Cursor
  notes : List (Nat × Cursor)
  deriving Repr

namespace Match

def text (m : Match) : Text := m.start.upTo m.stop

def note? (m : Match) (slot : Nat) : Option Cursor := (m.notes.find? (·.1 == slot)).map Prod.snd

def group? (m : Match) (i : Nat) : Option Text :=
  match m.note? (2 * i), m.note? (2 * i + 1) with
  | some a, some b => some (a.upTo b)
  | _, _ => none

def group (m : Match) (i : Nat) : Text := (m.group? i).getD []

def isEmpty (m : Match) : Bool := m.start.pos.index == m.stop.pos.index

end Match

namespace Pattern

/-- The start of a match, the ways on after the next character, and the places noted so far. -/
structure Thread where
  ways : List Way
  start : Cursor
  notes : List (Nat × Cursor)

/-- The threads at a place, the last first, their nodes as bits of a number, and the match that ends
all further threads. -/
structure Front where
  threads : List Thread := []
  nodes : Nat := 0
  found : Option Match := none

def holdAt (c : Cursor) (edges : List Edge) : Bool := edges.all (·.holds c.before c.peek)

def noteAt (c : Cursor) (slots : List Nat) (notes : List (Nat × Cursor)) : List (Nat × Cursor) :=
  slots.foldr (fun slot notes => (slot, c) :: notes) notes

namespace Automaton

/-- What the node reads next and leads to, if it can read the character at a place. -/
def ready? (a : Automaton) (c : Cursor) (n : Nat) : Option (List Way) :=
  match a.steps[n]?, c.rest with
  | some s, x :: _ => if s.set.has x then some s.ways else none
  | _, _ => none

def follow (a : Automaton) (c start : Cursor) (notes : List (Nat × Cursor)) :
    List Way → Front → Front
  | [], f => f
  | w :: ws, f =>
    if !holdAt c w.edges then follow a c start notes ws f
    else
      match w.goal with
      | none => { f with found := some ⟨start, c, noteAt c w.slots notes⟩ }
      | some n =>
        match a.ready? c n with
        | none => follow a c start notes ws f
        | some ways =>
          if f.nodes.testBit n then follow a c start notes ws f
          else
            follow a c start notes ws
              ⟨⟨ways, start, noteAt c w.slots notes⟩ :: f.threads, f.nodes ||| (1 <<< n), none⟩

/-- Lets threads go on in order, until one is a match; `c` is the place after the next character. -/
def advance (a : Automaton) (c : Cursor) : List Thread → Front → Front
  | [], f => f
  | t :: ts, f =>
    if f.found.isSome then f else advance a c ts (a.follow c t.start t.notes t.ways f)

/-- The preferred match of some threads and those that start here or later, or else the match
`best`. The place is given by its three parts. -/
def search (a : Automaton) : (rest : Text) → (pos : Position) → (before : Option Char) →
    List Thread → (best : Option Match) → Option Match
  | [], pos, before, _, best =>
    let here : Cursor := ⟨pos, before, []⟩
    best.or (a.follow here here [] a.start {}).found
  | x :: xs, pos, before, threads, best =>
    let next : Cursor := ⟨pos.step x, some x, xs⟩
    if best.isSome then
      if threads.isEmpty then best
      else
        let f := a.advance next threads {}
        search a xs next.pos next.before f.threads.reverse (f.found.or best)
    else if a.mayStart x then
      let here : Cursor := ⟨pos, before, x :: xs⟩
      let new := a.follow here here [] a.start {}
      let f := a.advance next (threads ++ new.threads.reverse) {}
      search a xs next.pos next.before f.threads.reverse (f.found.or new.found)
    else if threads.isEmpty then search a xs next.pos next.before [] none
    else
      let f := a.advance next threads {}
      search a xs next.pos next.before f.threads.reverse f.found

end Automaton
end Pattern
end MailMarkup
