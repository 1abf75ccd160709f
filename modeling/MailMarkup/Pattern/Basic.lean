import MailMarkup.Pattern.Search
import MailMarkup.Pattern.Source.Reader

/-!
# Searching and replacing with patterns

`find` gives the first match at or after a place, `Pattern.occurrences` the successive matches in a
text, none overlapping another, and `Pattern.replace` the text with each match replaced.
-/
namespace MailMarkup

/-- A pattern's source and flags: what it is known by. -/
structure PatternKey where
  source : String
  flags : Pattern.Flags
  deriving DecidableEq, Repr, Inhabited

structure Pattern where
  key : PatternKey
  automaton : Pattern.Automaton
  deriving Repr

namespace Pattern

def compile (key : PatternKey) : Except SourceError Pattern :=
  match Source.read key.source.toList key.flags with
  | .ok e => .ok ⟨key, .ofExpr e⟩
  | .error e => .error e

/-- The preferred one of the matches that start first, at a place or later. -/
def find (p : Pattern) (c : Cursor) : Option Match :=
  p.automaton.search c.rest c.pos c.before [] none

def first? (p : Pattern) (t : Text) : Option Match := p.find (.start t)

def isIn (p : Pattern) (t : Text) : Bool := (p.first? t).isSome

def nextMatch (p : Pattern) (c : Cursor) (last : Option Nat) : Option Match :=
  match p.find c with
  | none => none
  | some m =>
    if m.isEmpty && last == some m.stop.pos.index then
      if c.atEnd then none else p.find c.next
    else some m

def collect (p : Pattern) : Nat → Cursor → Option Nat → List Match → List Match
  | 0, _, _, acc => acc.reverse
  | n + 1, c, last, acc =>
    match p.nextMatch c last with
    | none => acc.reverse
    | some m => collect p n m.stop (some m.stop.pos.index) (m :: acc)

/-- The successive matches in a text. Each ends later than the one before, so there are at most
one more than the text has characters. -/
def occurrences (p : Pattern) (t : Text) : List Match :=
  p.collect (t.length + 1) (.start t) none []

/-- Each match with the text between it and the match before. -/
def withGaps (c : Cursor) : List Match → List (Text × Match) → List (Text × Match) × Cursor
  | [], acc => (acc.reverse, c)
  | m :: ms, acc => withGaps m.stop ms ((c.upTo m.start, m) :: acc)

def replace (p : Pattern) (f : Match → Text) (t : Text) : Text :=
  let (pieces, last) := withGaps (.start t) (p.occurrences t) []
  pieces.flatMap (fun (gap, m) => gap ++ f m) ++ last.rest

/-- As `replace`, keeping the matches for which `f` has no replacement. -/
def replaceSome (p : Pattern) (f : Match → Option Text) (t : Text) : Text :=
  p.replace (fun m => (f m).getD m.text) t

end Pattern
end MailMarkup
