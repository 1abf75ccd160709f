import MailMarkup.Files.Path

/-!
# Globs

Patterns for paths. A star stands for any bytes but slashes, a question mark for one such byte, and
a double star between slashes for any directories. Brackets list bytes, braces list alternatives,
and a backslash takes the next character as it is. Matching goes by the bytes of a path, so a
question mark is only part of a character beyond ASCII.

`Glob.read` is a fold over the characters of a pattern; what a double star means is settled by the
character after it.
-/
namespace MailMarkup

namespace Glob

inductive Token where
  | literal (c : Char)
  /-- One byte, not a slash. -/
  | one
  /-- Any bytes but slashes. -/
  | many
  /-- Any directories, at the beginning. -/
  | deepStart
  /-- Any directories, between two slashes. -/
  | deepMiddle
  /-- Anything below a directory. -/
  | deepEnd
  | bytes (negated : Bool) (ranges : List (Char × Char))
  | oneOf (branches : List (List Token))

inductive Fault where
  | unclosedClass
  | invalidRange (a b : Char)
  | unopenedGroup
  | unclosedGroup
  | danglingEscape
  deriving DecidableEq, Repr

def Fault.message : Fault → String
  | .unclosedClass => "unclosed character class; missing ']'"
  | .invalidRange a b => "invalid range; '" ++ a.toString ++ "' > '" ++ b.toString ++ "'"
  | .unopenedGroup =>
    "unopened alternate group; missing '\x7b' (maybe escape '\x7d' with '[\x7d]'?)"
  | .unclosedGroup =>
    "unclosed alternate group; missing '\x7d' (maybe escape '\x7b' with '[\x7b]'?)"
  | .danglingEscape => "dangling '\\'"

/-! ## Reading -/

/-- What the characters read so far leave open. -/
inductive Mode where
  | plain
  | star (before : Option Char)
  | stars (before : Option Char)
  | escape
  | bracket
  | class_ (negated : Bool) (ranges : List (Char × Char)) (first inRange : Bool)

/-- A pattern under way. Tokens and branches are kept last first. -/
structure Reading where
  mode : Mode := .plain
  before : Option Char := none
  tokens : List Token := []
  branches : List (List Token) := []
  /-- The tokens and branches around each group that is open, innermost first. -/
  around : List (List Token × List (List Token)) := []

namespace Reading

def inGroup (r : Reading) : Bool := !r.around.isEmpty

def push (r : Reading) (t : Token) : Reading := { r with tokens := t :: r.tokens }

def openGroup (r : Reading) : Reading :=
  { r with tokens := [], branches := [], around := (r.tokens, r.branches) :: r.around }

def nextBranch (r : Reading) : Reading :=
  { r with tokens := [], branches := r.tokens.reverse :: r.branches }

def closeGroup (r : Reading) : Except Fault Reading :=
  match r.around with
  | [] => .error .unopenedGroup
  | (tokens, branches) :: around =>
    let group := Token.oneOf (r.tokens.reverse :: r.branches).reverse
    .ok { r with tokens := group :: tokens, branches, around }

/-- A double star that takes the slash before it along. -/
def deepen (r : Reading) (t : Token) : Reading :=
  match r.tokens with
  | .deepStart :: _ => r
  | .deepEnd :: _ => r
  | _ :: ts => { r with tokens := t :: ts }
  | [] => r.push t

/-- Settles a double star by the character after it, and says whether that belongs to it. -/
def settleStars (r : Reading) (before after : Option Char) : Reading × Bool :=
  let r := { r with mode := .plain }
  let twice := ((r.push .many).push .many, false)
  if r.tokens.isEmpty then
    if after.isNone || after == some '/' then (r.push .deepStart, true) else twice
  else if before != some '/' && (!r.inGroup || (before != some ',' && before != some '{')) then
    twice
  else if after.isNone then (r.deepen .deepEnd, true)
  else if r.inGroup && (after == some ',' || after == some '}') then (r.deepen .deepEnd, false)
  else if after == some '/' then (r.deepen .deepMiddle, true)
  else twice

def plainStep (r : Reading) (c : Char) : Except Fault Reading :=
  if c == '?' then .ok (r.push .one)
  else if c == '*' then .ok { r with mode := .star r.before }
  else if c == '[' then .ok { r with mode := .bracket }
  else if c == '{' then .ok r.openGroup
  else if c == '}' then r.closeGroup
  else if c == ',' && r.inGroup then .ok r.nextBranch
  else if c == '\\' then .ok { r with mode := .escape }
  else .ok (r.push (.literal c))

def endRange (ranges : List (Char × Char)) (c : Char) : Except Fault (List (Char × Char)) :=
  match ranges with
  | (a, _) :: rs => if c < a then .error (.invalidRange a c) else .ok ((a, c) :: rs)
  | [] => .ok [(c, c)]

def classStep (r : Reading) (negated : Bool) (ranges : List (Char × Char)) (first inRange : Bool)
    (c : Char) : Except Fault Reading :=
  let stay (ranges : List (Char × Char)) (inRange : Bool) : Reading :=
    { r with mode := .class_ negated ranges false inRange }
  if c == ']' && !first then
    let ranges := if inRange then ('-', '-') :: ranges else ranges
    .ok ({ r with mode := .plain }.push (.bytes negated ranges.reverse))
  else if c == '-' && !first && !inRange then .ok (stay ranges true)
  else if inRange then (endRange ranges c).map (stay · false)
  else .ok (stay ((c, c) :: ranges) false)

def modeStep (r : Reading) (c : Char) : Except Fault Reading :=
  match r.mode with
  | .plain => r.plainStep c
  | .star before =>
    if c == '*' then .ok { r with mode := .stars before }
    else ({ r with mode := .plain }.push .many).plainStep c
  | .stars before =>
    let (r, taken) := r.settleStars before (some c)
    if taken then .ok r else r.plainStep c
  | .escape => .ok ({ r with mode := .plain }.push (.literal c))
  | .bracket =>
    if c == '!' || c == '^' then .ok { r with mode := .class_ true [] true false }
    else r.classStep false [] true false c
  | .class_ negated ranges first inRange => r.classStep negated ranges first inRange c

def step (r : Reading) (c : Char) : Except Fault Reading :=
  (r.modeStep c).map fun r => { r with before := some c }

def finish (r : Reading) : Except Fault (List Token) :=
  let close (r : Reading) : Except Fault (List Token) :=
    if r.inGroup then .error .unclosedGroup else .ok r.tokens.reverse
  match r.mode with
  | .plain => close r
  | .star _ => close (r.push .many)
  | .stars before => close (r.settleStars before none).1
  | .escape => .error .danglingEscape
  | .bracket => .error .unclosedClass
  | .class_ _ _ _ _ => .error .unclosedClass

end Reading

/-! ## Matching -/

abbrev Bytes := List UInt8

def slash : UInt8 := 47

def charBytes (c : Char) : Bytes := (String.ofList [c]).toUTF8.toList

def textBytes (t : Text) : Bytes := (String.ofList t).toUTF8.toList

/-- The places in some bytes that a match can have come to: a mark before each byte and one at the
end. -/
abbrev Marks := List Bool

namespace Marks

def atStart (bs : Bytes) : Marks := true :: bs.map fun _ => false

def union (ms ns : Marks) : Marks := ms.zipWith (· || ·) ns

def advance (test : UInt8 → Bool) (bs : Bytes) (ms : Marks) : Marks :=
  false :: bs.zipWith (fun b m => m && test b) ms

/-- Any number of bytes further. `reached` is whether a mark has spread to the first place. -/
def spread (test : UInt8 → Bool) (reached : Bool) : Bytes → Marks → Marks
  | b :: bs, m :: ms => (reached || m) :: spread test ((reached || m) && test b) bs ms
  | _, ms => ms.map (reached || ·)

/-- No further, or to what follows any later slash. `seen` is whether there was a mark before,
`reached` is whether a slash has just followed one. -/
def descend (seen reached : Bool) : Bytes → Marks → Marks
  | b :: bs, m :: ms => (reached || m) :: descend (seen || m) ((seen || m) && b == slash) bs ms
  | _, ms => ms.map (reached || ·)

end Marks

/-- The ranges of bytes that a range of characters stands for. Beyond ASCII the bytes of both ends
are listed, and only the last of the first and the first of the last are joined. -/
def byteRanges (a b : Char) : List (UInt8 × UInt8) :=
  let single (bs : Bytes) : List (UInt8 × UInt8) := bs.map fun x => (x, x)
  if a == b then single (charBytes a)
  else
    let as := charBytes a
    let bs := charBytes b
    single as.dropLast ++ [(as.getLast?.getD 0, bs.head?.getD 0)] ++ single (bs.drop 1)

def inRanges (ranges : List (Char × Char)) (x : UInt8) : Bool :=
  ranges.any fun (a, b) => (byteRanges a b).any fun (lo, hi) => lo ≤ x && x ≤ hi

mutual

/-- Tokens that stand for nothing at all. -/
def isBlank : Token → Bool
  | .oneOf branches => allBlankBranches branches
  | _ => false

def allBlank : List Token → Bool
  | [] => true
  | t :: ts => isBlank t && allBlank ts

def allBlankBranches : List (List Token) → Bool
  | [] => true
  | b :: bs => allBlank b && allBlankBranches bs

end

mutual

/-- Where a match can have come to after a token. A branch that stands for nothing is passed over,
and so is a group of such branches. -/
def follow (bs : Bytes) : Token → Marks → Marks
  | .literal c, ms => (charBytes c).foldl (fun ms b => ms.advance (· == b) bs) ms
  | .one, ms => ms.advance (· != slash) bs
  | .many, ms => ms.spread (· != slash) false bs
  | .deepStart, ms => ms.descend false false bs
  | .deepMiddle, ms => (ms.advance (· == slash) bs).descend false false bs
  | .deepEnd, ms => (ms.advance (· == slash) bs).spread (fun _ => true) false bs
  | .bytes negated ranges, ms => ms.advance (fun b => inRanges ranges b != negated) bs
  | .oneOf branches, ms => if allBlankBranches branches then ms else followAny bs branches ms

def followAny (bs : Bytes) : List (List Token) → Marks → Marks
  | [], ms => ms.map fun _ => false
  | branch :: more, ms =>
    let others := followAny bs more ms
    if allBlank branch then others else (followAll bs branch ms).union others

def followAll (bs : Bytes) : List Token → Marks → Marks
  | [], ms => ms
  | t :: ts, ms => followAll bs ts (follow bs t ms)

end

end Glob

structure Glob where
  tokens : List Glob.Token

namespace Glob

def read (t : Text) : Except Fault Glob :=
  ((t.foldlM Reading.step {}).bind Reading.finish).map Glob.mk

def accepts (g : Glob) (p : Path) : Bool :=
  match g.tokens with
  | [.deepStart] => true
  | ts =>
    let bs := textBytes p.text
    (followAll bs ts (.atStart bs)).getLast? == some true

end Glob
end MailMarkup
