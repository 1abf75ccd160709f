import MailMarkup.Pattern.Expr
import MailMarkup.Pattern.Fault

/-!
# Reading the source of a pattern

What the parts of the reader share: the flags that say how a pattern is read, what is left of the
source, and the skipping of blanks and comments in a source that is laid out for the reader.
-/
namespace MailMarkup.Pattern

/-- How a pattern is read: letters in any case, `^` and `$` at every line, `.` over line feeds. -/
structure Flags where
  ignoreCase : Bool := false
  multiLine : Bool := false
  dotAll : Bool := false
  deriving DecidableEq, Repr, Inhabited

def Flags.none : Flags := {}

def Flags.anyCase : Flags := { ignoreCase := true }

def Flags.spanning : Flags := { ignoreCase := true, dotAll := true }

namespace Source

/-- The flags in force at a place of the source: besides those a pattern starts with, whether lines
may end in carriage returns, whether repetitions are reluctant unless marked, whether blanks and
comments are skipped, and whose characters the classes are about. -/
structure Mode extends Flags where
  crlf : Bool := false
  swapGreed : Bool := false
  verbose : Bool := false
  scope : Scope := .wide
  deriving DecidableEq, Repr

/-- What is left of the source, how much has been read, and the groups opened so far. -/
structure State where
  rest : Text
  place : Nat := 0
  groups : Nat := 0
  names : List Text := []
  deriving Repr

abbrev Result := Except SourceError

namespace State

def peek (s : State) : Option Char := s.rest.head?

def drop (n : Nat) (s : State) : State := { s with rest := s.rest.drop n, place := s.place + n }

def fault {α : Type} (s : State) (start : Nat) (f : Fault) : Result α :=
  .error ⟨f, start, s.place - start⟩

def faultHere {α : Type} (s : State) (n : Nat) (f : Fault) : Result α := .error ⟨f, s.place, n⟩

end State

/-- How many characters at the start are blanks or belong to comments, inside a comment or not. -/
def spaceSize : Bool → Text → Nat
  | _, [] => 0
  | true, c :: t => spaceSize (c != '\n') t + 1
  | false, c :: t => if Text.isBlank c || c == '#' then spaceSize (c == '#') t + 1 else 0

/-- Skips blanks and comments where the mode says so. -/
def settle (m : Mode) (s : State) : State :=
  if m.verbose then s.drop (spaceSize false s.rest) else s

/-- Reads one character and what may be skipped after it. -/
def bump (m : Mode) (s : State) : State := settle m (s.drop 1)

end Source
end MailMarkup.Pattern
