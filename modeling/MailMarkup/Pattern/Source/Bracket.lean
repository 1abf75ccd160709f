import MailMarkup.Pattern.Source.Escape

/-!
# Sets in brackets

A bracketed set has characters, ranges, classes and further bracketed sets as members. Sets that
stand next to each other are united; `&&`, `--` and `~~` between two of them take what they share,
what only the first has, and what only one of them has, from left to right.
-/
namespace MailMarkup.Pattern.Source

inductive SetOp where
  | inter | diff | symmDiff
  deriving DecidableEq, Repr

def SetOp.apply : SetOp → CharSet → CharSet → CharSet
  | .inter => .inter
  | .diff => .diff
  | .symmDiff => .symmDiff

def setOp? : Text → Option SetOp
  | '&' :: '&' :: _ => some .inter
  | '-' :: '-' :: _ => some .diff
  | '~' :: '~' :: _ => some .symmDiff
  | _ => none

/-- The members of a set so far: their union, how many they are and how deeply they are nested. -/
structure Members where
  set : CharSet := .none
  count : Nat := 0
  height : Nat := 0

def Members.insert (ms : Members) (set : CharSet) (height : Nat) : Members :=
  ⟨ms.set.union set, ms.count + 1, max ms.height height⟩

def Members.depth (ms : Members) : Nat := if ms.count < 2 then ms.height else ms.height + 1

/-- The members before an operator, with the operator, and how deeply they are nested. -/
abbrev Left := Option (SetOp × CharSet × Nat)

/-- What the members after an operator make together with those before it. -/
def Members.combine (ms : Members) : Left → CharSet × Nat
  | none => (ms.set, ms.depth)
  | some (op, set, depth) => (op.apply set ms.set, max depth ms.depth + 1)

def namedAscii? (name : String) : Option CharSet :=
  match name with
  | "alnum" => some ⟨[(48, 57), (65, 90), (97, 122)]⟩
  | "alpha" => some ⟨[(65, 90), (97, 122)]⟩
  | "ascii" => some ⟨[(0, 127)]⟩
  | "blank" => some ⟨[(9, 9), (32, 32)]⟩
  | "cntrl" => some ⟨[(0, 31), (127, 127)]⟩
  | "digit" => some ⟨[(48, 57)]⟩
  | "graph" => some ⟨[(33, 126)]⟩
  | "lower" => some ⟨[(97, 122)]⟩
  | "print" => some ⟨[(32, 126)]⟩
  | "punct" => some ⟨[(33, 47), (58, 64), (91, 96), (123, 126)]⟩
  | "space" => some ⟨[(9, 13), (32, 32)]⟩
  | "upper" => some ⟨[(65, 90)]⟩
  | "word" => some ⟨[(48, 57), (65, 90), (95, 95), (97, 122)]⟩
  | "xdigit" => some ⟨[(48, 57), (65, 70), (97, 102)]⟩
  | _ => none

/-- A class named between colons and brackets, and whether its complement is meant. -/
def colonClass? (s : State) : Option (CharSet × Bool × State) :=
  match s.rest with
  | '[' :: ':' :: t =>
    let (negated, t) := if t.head? == some '^' then (true, t.drop 1) else (false, t)
    let name := t.takeWhile (· != ':')
    match t.dropWhile (· != ':'), namedAscii? (String.ofList name) with
    | ':' :: ']' :: _, some set =>
      some (set, negated, s.drop (name.length + if negated then 5 else 4))
    | _, _ => none
  | _ => none

/-- A character, class or condition, before it is known whether it starts a range. -/
def setAtom (m : Mode) (s : State) : Result (Atom × State) :=
  match s.rest with
  | [] => s.faultHere 1 .unclosedSet
  | '\\' :: _ => escape m s
  | c :: _ => .ok (.char c false, s.drop 1)

def bound (m : Mode) (start : Nat) (s : State) : Atom → Result Char
  | .char c byte =>
    if m.scope = .ascii && 128 ≤ c.toNat then
      s.fault start (if byte then .badEncoding else .notInAscii)
    else .ok c
  | _ => s.fault start .rangeOfClass

def member (m : Mode) (opened : Nat) (s : State) : Result (CharSet × State) := do
  let (a, s1) ← setAtom m s
  let next := settle m s1
  let after := bump m next
  if next.rest.isEmpty then next.fault opened .unclosedSet
  else if next.peek != some '-' || after.peek == some ']' || after.peek == some '-' then
    match a with
    | .set set => .ok (set, next)
    | .edge _ => s1.fault s.place .edgeInSet
    | .char _ _ => do
      let c ← bound m s.place s1 a
      .ok (folded m (.single c), next)
  else if after.rest.isEmpty then after.fault opened .unclosedSet
  else do
    let (b, s2) ← setAtom m after
    let lo ← bound m s.place s1 a
    let hi ← bound m after.place s2 b
    if lo ≤ hi then .ok (folded m (.range lo.toNat hi.toNat), s2)
    else s2.fault s.place .reversedRange

def leadingHyphens (m : Mode) : (fuel : Nat) → State → Members → Members × State
  | 0, s, ms => (ms, s)
  | fuel + 1, s, ms =>
    if s.peek == some '-' then leadingHyphens m fuel (bump m s) (ms.insert (.single '-') 0)
    else (ms, s)

/-- The start of a set after its opening bracket: whether it is complemented, and the hyphens or the
closing bracket that are members because they come first. -/
def opening (m : Mode) (s : State) : Bool × Members × State :=
  let inner := bump m s
  let (negated, inner) := if inner.peek == some '^' then (true, bump m inner) else (false, inner)
  let (ms, inner) := leadingHyphens m inner.rest.length inner {}
  if ms.count = 0 && inner.peek == some ']' then
    (negated, ms.insert (.single ']') 0, bump m inner)
  else (negated, ms, inner)

/-- The members of the set opened at a place, up to its closing bracket. -/
def members (m : Mode) (opened : Nat) : (fuel : Nat) → State → Members → Left →
    Result (CharSet × Nat × State)
  | 0, s, _, _ => s.fault opened .unclosedSet
  | fuel + 1, s, ms, left =>
    let s := settle m s
    match s.rest with
    | [] => s.fault opened .unclosedSet
    | ']' :: _ =>
      let (set, depth) := ms.combine left
      .ok (set, depth, s.drop 1)
    | '[' :: _ =>
      match colonClass? s with
      | some (set, negated, next) => do
        let set ← polar m s.place next negated (folded m set)
        members m opened fuel next (ms.insert set 0) left
      | none => do
        let (negated, first, inner) := opening m s
        let (set, depth, next) ← members m s.place fuel inner first none
        let set ← polar m s.place next negated set
        members m opened fuel next (ms.insert set (depth + 1)) left
    | _ =>
      match setOp? s.rest with
      | some op =>
        let (set, depth) := ms.combine left
        members m opened fuel (s.drop 2) {} (some (op, set, depth))
      | none => do
        let (set, next) ← member m opened s
        members m opened fuel next (ms.insert set 0) left

def bracket (m : Mode) (s : State) : Result (CharSet × Nat × State) := do
  let (negated, first, inner) := opening m s
  let (set, depth, next) ← members m s.place (inner.rest.length + 1) inner first none
  let set ← polar m s.place next negated set
  .ok (set, depth + 1, next)

end MailMarkup.Pattern.Source
