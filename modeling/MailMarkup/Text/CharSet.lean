import MailMarkup.Text.Basic

/-!
# Sets of characters

A set of characters is a list of closed ranges of code points, in increasing order and apart from
each other. The operations on sets keep that form, so each set has one representation.
-/
namespace MailMarkup

/-- Membership in a list of closed ranges in increasing order. -/
def Text.inRanges (n : Nat) : List (Nat × Nat) → Bool
  | [] => false
  | (lo, hi) :: rs => if n < lo then false else n ≤ hi || inRanges n rs

/-- The short form of a name, given short or long in lower case without separators. -/
def Text.shortName? (names : List (String × String)) (name : String) : Option String :=
  (names.find? fun (short, long) =>
    String.ofList (Text.lower short.toList) == name || long == name).map Prod.fst

structure CharSet where
  ranges : List (Nat × Nat)
  deriving DecidableEq, Repr, Inhabited

namespace CharSet

def has (s : CharSet) (c : Char) : Bool := Text.inRanges c.toNat s.ranges

def none : CharSet := ⟨[]⟩

/-- The greatest code point. -/
def last : Nat := 0x10FFFF

def all : CharSet := ⟨[(0, last)]⟩

def range (lo hi : Nat) : CharSet := ⟨[(lo, hi)]⟩

def single (c : Char) : CharSet := .range c.toNat c.toNat

def isAscii (s : CharSet) : Bool := s.ranges.all fun r => r.2 < 128

/-- Joins ranges that overlap or touch, after the range from `a` to `b`. -/
def joinFrom (a b : Nat) : List (Nat × Nat) → List (Nat × Nat)
  | [] => [(a, b)]
  | (c, d) :: rs => if c ≤ b + 1 then joinFrom a (max b d) rs else (a, b) :: joinFrom c d rs

/-- Joins the ranges that overlap or touch in a list ordered by first members. -/
def joined : List (Nat × Nat) → List (Nat × Nat)
  | [] => []
  | (a, b) :: rs => joinFrom a b rs

def ofRanges (rs : List (Nat × Nat)) : CharSet :=
  ⟨joined (rs.mergeSort fun a b => a.1 ≤ b.1)⟩

def ofChars (cs : List Char) : CharSet := ofRanges (cs.map fun c => (c.toNat, c.toNat))

def union (s t : CharSet) : CharSet :=
  ⟨joined (s.ranges.merge t.ranges fun a b => a.1 ≤ b.1)⟩

/-- What a list of ranges leaves out, from `n` on. -/
def gapsFrom (n : Nat) : List (Nat × Nat) → List (Nat × Nat)
  | [] => if n ≤ last then [(n, last)] else []
  | (a, b) :: rs => if n < a then (n, a - 1) :: gapsFrom (b + 1) rs else gapsFrom (b + 1) rs

def compl (s : CharSet) : CharSet := ⟨gapsFrom 0 s.ranges⟩

def inter (s t : CharSet) : CharSet := (s.compl.union t.compl).compl

def diff (s t : CharSet) : CharSet := s.inter t.compl

def symmDiff (s t : CharSet) : CharSet := (s.diff t).union (t.diff s)

def readRuns : List Char → List Char → Nat → List (String × Nat)
  | [], name, n => [(String.ofList name.reverse, n)]
  | c :: cs, name, n =>
    if Text.isDigit c then readRuns cs name (10 * n + (c.toNat - 48))
    else if n = 0 then readRuns cs (c :: name) 0
    else (String.ofList name.reverse, n) :: readRuns cs [c] 0

/-- The ranges of the runs whose names are wanted, where the first run starts at `n`. -/
def wantedFrom (want : String → Bool) (n : Nat) : List (String × Nat) → List (Nat × Nat)
  | [] => []
  | (name, k) :: rs =>
    if want name then (n, n + k - 1) :: wantedFrom want (n + k) rs
    else wantedFrom want (n + k) rs

/-- The members of the runs whose names are wanted, where the runs cover all characters in order. -/
def ofRuns (want : String → Bool) (runs : List String) : CharSet :=
  ⟨joined (wantedFrom want 0 (readRuns (runs.flatMap String.toList) [] 0))⟩

/-- The members of the runs of one name, short or long. -/
def ofNamedRuns? (names : List (String × String)) (runs : List String) (name : String) :
    Option CharSet :=
  (Text.shortName? names name).map fun short => ofRuns (· == short) runs

end CharSet
end MailMarkup
