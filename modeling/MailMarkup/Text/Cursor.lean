import MailMarkup.Text.Basic

/-!
# Positions and cursors

A cursor is a place in a text together with what is left to read. Its position is kept in
characters, in bytes and as a line and column, so that no reader has to count again.
-/
namespace MailMarkup

/-- Characters and bytes before a place, and its line and column, both from 1. -/
structure Position where
  index : Nat := 0
  offset : Nat := 0
  line : Nat := 1
  column : Nat := 1
  deriving DecidableEq, Repr, Inhabited

/-- The position after reading one character. Only a line feed ends a line. -/
def Position.step (p : Position) (c : Char) : Position :=
  if c = '\n' then ⟨p.index + 1, p.offset + c.utf8Size, p.line + 1, 1⟩
  else ⟨p.index + 1, p.offset + c.utf8Size, p.line, p.column + 1⟩

structure Cursor where
  pos : Position
  before : Option Char
  rest : Text
  deriving DecidableEq, Repr, Inhabited

namespace Cursor

def start (t : Text) : Cursor := ⟨{}, none, t⟩

def next (c : Cursor) : Cursor :=
  match c.rest with
  | [] => c
  | x :: xs => ⟨c.pos.step x, some x, xs⟩

def advance : Nat → Cursor → Cursor
  | 0, c => c
  | n + 1, c => advance n c.next

def atEnd (c : Cursor) : Bool := c.rest.isEmpty

def peek (c : Cursor) : Option Char := c.rest.head?

def skipWhile (p : Char → Bool) (c : Cursor) : Cursor := c.advance (c.rest.takeWhile p).length

def skipBlanks (c : Cursor) : Cursor := c.skipWhile Text.isBlank

/-- The text between two cursors over the same source. -/
def upTo (a b : Cursor) : Text := a.rest.take (b.pos.index - a.pos.index)

@[simp] theorem rest_next (c : Cursor) : c.next.rest = c.rest.tail := by
  unfold next; split <;> simp [*]

@[simp] theorem rest_advance (n : Nat) (c : Cursor) : (c.advance n).rest = c.rest.drop n := by
  induction n generalizing c with
  | zero => rfl
  | succ n ih => simp [advance, ih, List.drop_tail]

theorem rest_advance_le (n : Nat) (c : Cursor) : (c.advance n).rest.length ≤ c.rest.length := by
  simp

theorem rest_skipWhile (p : Char → Bool) (c : Cursor) :
    (c.skipWhile p).rest = c.rest.dropWhile p := by
  rw [skipWhile, rest_advance]
  generalize c.rest = t
  induction t with
  | nil => rfl
  | cons x t ih => by_cases h : p x <;> simp [h, ih]

theorem rest_skipWhile_le (p : Char → Bool) (c : Cursor) :
    (c.skipWhile p).rest.length ≤ c.rest.length := by
  simp [skipWhile]

end Cursor

/-- Line and column of a byte offset. An offset inside a character counts as the character's own,
and one past the end as the end. -/
def Text.lineColumn (t : Text) (offset : Nat) : Nat × Nat :=
  go (.start t) t.length
where
  go (c : Cursor) : Nat → Nat × Nat
    | 0 => (c.pos.line, c.pos.column)
    | n + 1 =>
      match c.rest with
      | [] => (c.pos.line, c.pos.column)
      | x :: _ =>
        if c.pos.offset + x.utf8Size ≤ offset then go c.next n
        else (c.pos.line, c.pos.column)

end MailMarkup
