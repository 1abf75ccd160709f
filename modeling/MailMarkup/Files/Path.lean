import MailMarkup.Text.Basic

/-!
# Paths

A path is kept as it was written. What it says is its list of steps: doubled slashes, a slash at the
end and points in the middle add nothing. Paths are compared and ordered by their steps.

Names are Unicode text. A file system may also hold names whose bytes spell no text; files with such
names are left out here, and with them what a filter does with a path that cannot be read as text.
-/
namespace MailMarkup

inductive Step where
  | root | here | up
  | name (n : Text)
  deriving DecidableEq, Repr

namespace Step

/-- The step written by what stands between two slashes. -/
def ofPiece? (t : Text) : Option Step :=
  if t = [] || t = ['.'] then none
  else if t = ['.', '.'] then some .up
  else some (.name t)

def text : Step → Text
  | .root => []
  | .here => ['.']
  | .up => ['.', '.']
  | .name n => n

def isName : Step → Bool
  | .name _ => true
  | _ => false

/-- Steps are ordered by kind, and names by their characters. -/
def key : Step → List Nat
  | .root => [0]
  | .here => [1]
  | .up => [2]
  | .name n => 3 :: n.map Char.toNat

def precedes (a b : Step) : Bool := a.key.lex b.key (decide <| · < ·)

end Step

structure Path where
  text : Text
  deriving DecidableEq, Repr, Inhabited

namespace Path

def ofString (s : String) : Path := ⟨s.toList⟩

def display (p : Path) : String := String.ofList p.text

def isAbsolute (p : Path) : Bool := p.text.head? == some '/'

def pieces (p : Path) : List Text := Text.splitOn '/' p.text

def ofPieces (pieces : List Text) : Path := ⟨Text.join ['/'] pieces⟩

/-- The pieces before the one that writes the last step, the last of them first. -/
def above (p : Path) : List Text :=
  (p.pieces.reverse.dropWhile fun piece => (Step.ofPiece? piece).isNone).drop 1

def steps (p : Path) : List Step :=
  let lead : List Step :=
    if p.isAbsolute then [.root]
    else if p.pieces.head? == some ['.'] then [.here]
    else []
  lead ++ p.pieces.filterMap Step.ofPiece?

/-- The plainest path with these steps. -/
def ofSteps : List Step → Path
  | .root :: ss => ⟨'/' :: Text.join ['/'] (ss.map Step.text)⟩
  | ss => ⟨Text.join ['/'] (ss.map Step.text)⟩

def join (p q : Path) : Path :=
  if q.isAbsolute then q
  else if p.text.isEmpty || p.text.getLast? == some '/' then ⟨p.text ++ q.text⟩
  else ⟨p.text ++ '/' :: q.text⟩

def child (p : Path) (name : Text) : Path := p.join ⟨name⟩

def fileName? (p : Path) : Option Text :=
  match p.steps.getLast? with
  | some (.name n) => some n
  | _ => none

/-- What follows the last point of the file name, unless nothing stands before the point. -/
def extension? (p : Path) : Option Text :=
  match p.fileName? with
  | none => none
  | some n =>
    match n.reverse.dropWhile (· != '.') with
    | [] => none
    | [_] => none
    | _ :: _ :: _ => some (n.reverse.takeWhile (· != '.')).reverse

def parent? (p : Path) : Option Path :=
  match p.steps.getLast? with
  | none => none
  | some .root => none
  | some _ => some (ofSteps p.steps.dropLast)

def same (p q : Path) : Bool := p.steps == q.steps

def le (p q : Path) : Bool := !q.steps.lex p.steps Step.precedes

/-- Paths in order, each once. Of equal paths the one given first is kept. -/
def sorted (ps : List Path) : List Path := (ps.mergeSort le).eraseRepsBy same

/-- Where the copy of `p` under another directory goes: its names are kept, all else is dropped. -/
def copyUnder (dir p : Path) : Path := dir.join (ofSteps (p.steps.filter Step.isName))

end Path
end MailMarkup
