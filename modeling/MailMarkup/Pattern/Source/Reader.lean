import MailMarkup.Pattern.Source.Bracket

/-!
# The written form of patterns

Patterns are written in the usual notation: literals, sets in brackets, `.`, classes, groups,
alternatives, repetitions and edges. `Source.read` turns the text into an expression, or says what
is wrong with it and where.
-/
namespace MailMarkup.Pattern.Source

/-- A piece of a sequence and how deeply it is nested. A setting of flags is a piece that reads
nothing and cannot be repeated. -/
structure Piece where
  expr : Expr
  height : Nat := 0
  isSetting : Bool := false
  deriving Repr

/-- The nesting of something made of parts: a single part is that thing itself. -/
def heightOf (ps : List Piece) : Nat :=
  let h := ps.foldl (fun h p => max h p.height) 0
  if ps.length < 2 then h else h + 1

def sequence (ps : List Piece) : Piece :=
  ⟨.sequence (ps.reverse.map Piece.expr), heightOf ps, false⟩

/-- The alternatives of which `ps` are the pieces of the last, each list the last first. -/
def alternatives (done : List Piece) (ps : List Piece) : Piece :=
  let all := (sequence ps :: done).reverse
  ⟨.alternatives (all.map Piece.expr), heightOf all, false⟩

def digits (m : Mode) : (fuel : Nat) → State → Text → Text × State
  | 0, s, acc => (acc.reverse, s)
  | fuel + 1, s, acc =>
    match s.peek with
    | some c => if Text.isDigit c then digits m fuel (bump m s) (c :: acc) else (acc.reverse, s)
    | none => (acc.reverse, s)

def skipBlanks (s : State) : State := s.drop (s.rest.takeWhile Text.isBlank).length

/-- A number with blanks around it; `none` if there is none. -/
def decimal (m : Mode) (s : State) : Result (Option Nat × State) :=
  let inner := skipBlanks s
  let (ds, next) := digits m inner.rest.length inner []
  let n := ds.foldl (fun n c => 10 * n + (c.toNat - 48)) 0
  if ds.isEmpty then .ok (none, settle m (skipBlanks next))
  else if n < 0x100000000 then .ok (some n, settle m (skipBlanks next))
  else next.fault inner.place .badCount

/-- A count in braces: the least number, and how many more there may be if that is bounded. -/
def counts (m : Mode) (s : State) : Result (Nat × Option Nat × State) := do
  let needed (s : State) : Option Nat → Result Nat
    | some n => .ok n
    | none => s.faultHere 1 .missingCount
  let inner := bump m s
  if inner.rest.isEmpty then inner.fault s.place .unclosedCount
  let (least, next) ← decimal m inner
  if next.rest.isEmpty then next.fault s.place .unclosedCount
  let (least, extra, stop) ←
    if next.peek == some ',' then do
      let more := bump m next
      if more.rest.isEmpty then more.fault s.place .unclosedCount
      if more.peek == some '\x7d' then do
        let least ← needed inner least
        .ok (least, none, more)
      else do
        let least ← needed inner least
        let (most, stop) ← decimal m more
        let most ← needed more most
        if most < least then stop.fault s.place .reversedCount
        .ok (least, some (most - least), stop)
    else do
      let least ← needed inner least
      .ok (least, some 0, next)
  if stop.peek == some '\x7d' then .ok (least, extra, bump m stop)
  else stop.fault s.place .unclosedCount

/-- The last piece repeated; a question mark after a repetition makes it reluctant. -/
def quantify (m : Mode) (place : Nat) (least : Nat) (extra : Option Nat) (s : State) :
    List Piece → Result (List Piece × State)
  | [] => .error ⟨.nothingToRepeat, place, 1⟩
  | p :: ps =>
    if p.isSetting then .error ⟨.nothingToRepeat, place, 1⟩
    else
      let marked := s.peek == some '?'
      .ok (⟨.times p.expr least extra (marked == m.swapGreed), p.height + 1, false⟩ :: ps,
        if marked then s.drop 1 else s)

def isNameStart (c : Char) : Bool :=
  c == '_' || Text.isLetter c ||
    128 ≤ c.toNat && (Text.property? "alphabetic").any (·.has c)

def isNameChar (c : Char) : Bool :=
  isNameStart c || Text.isDigit c || c == '.' || c == '[' || c == ']' ||
    128 ≤ c.toNat && (Text.ofCategories ["Nd", "Nl", "No"]).has c

/-- The name of a group, after the bracket that opens it; the rest is after the closing one. -/
def groupName (s : State) : Result State :=
  let name := s.rest.takeWhile (· != '>')
  let valid := match name with
    | [] => true
    | c :: cs => isNameStart c && cs.all isNameChar
  let next := s.drop name.length
  if !valid then s.faultHere name.length .badName
  else if next.rest.isEmpty then next.fault s.place .unclosedName
  else if name.isEmpty then s.faultHere 1 .emptyName
  else if s.names.contains name then next.fault s.place .repeatedName
  else .ok { next.drop 1 with names := name :: s.names }

def setFlag? (m : Mode) (on : Bool) : Char → Option Mode
  | 'i' => some { m with ignoreCase := on }
  | 'm' => some { m with multiLine := on }
  | 's' => some { m with dotAll := on }
  | 'U' => some { m with swapGreed := on }
  | 'u' => some { m with scope := if on then .wide else .ascii }
  | 'R' => some { m with crlf := on }
  | 'x' => some { m with verbose := on }
  | _ => none

/-- The flags up to the colon or bracket that ends them; `seen` has the letters so far. -/
def readFlags : (fuel : Nat) → Mode → (on : Bool) → (seen : Text) → State → Result (Mode × State)
  | 0, _, _, _, s => s.faultHere 1 .unclosedFlags
  | fuel + 1, m, on, seen, s =>
    match s.peek with
    | none => s.faultHere 1 .unclosedFlags
    | some c =>
      if c == ':' || c == ')' then
        if seen.head? == some '-' then s.faultHere 1 .danglingNegation else .ok (m, s)
      else if seen.any (· == c) then
        s.faultHere 1 (if c == '-' then .repeatedNegation else .repeatedFlag)
      else if c == '-' then readFlags fuel m false (c :: seen) (s.drop 1)
      else
        match setFlag? m on c with
        | some m => readFlags fuel m on (c :: seen) (s.drop 1)
        | none => s.faultHere 1 .unknownFlag

/-- What an opening bracket starts: a group that is noted or not, with the flags inside it, or a
setting of flags for what follows. -/
inductive Opening where
  | noted (s : State)
  | plain (m : Mode) (s : State)
  | setting (m : Mode) (s : State)

def isLookAround : Text → Bool
  | '?' :: '=' :: _ => true
  | '?' :: '!' :: _ => true
  | '?' :: '<' :: '=' :: _ => true
  | '?' :: '<' :: '!' :: _ => true
  | _ => false

def groupOpening (m : Mode) (s : State) : Result Opening :=
  let inner := bump m s
  if isLookAround inner.rest then inner.fault s.place .lookAround
  else
    match inner.rest with
    | '?' :: 'P' :: '<' :: _ => do
      let next ← groupName (inner.drop 3)
      .ok (.noted next)
    | '?' :: '<' :: _ => do
      let next ← groupName (inner.drop 2)
      .ok (.noted next)
    | ['?'] => s.faultHere 1 .unclosedGroup
    | '?' :: _ => do
      let start := inner.drop 1
      let (m', next) ← readFlags start.rest.length m true [] start
      if next.peek == some ':' then .ok (.plain m' (next.drop 1))
      else if next.place = start.place then inner.faultHere 1 .nothingToRepeat
      else .ok (.setting m' (next.drop 1))
    | _ => .ok (.noted inner)

def literal (m : Mode) (start : Nat) (s : State) (c : Char) (byte : Bool) : Result Expr :=
  if m.scope = .ascii && byte && 128 ≤ c.toNat then s.fault start .badEncoding
  else .ok (.one (folded m (.single c)))

def anyChar (m : Mode) (s : State) : Result Expr :=
  if m.scope = .ascii then s.faultHere 1 .badEncoding
  else if m.dotAll then .ok (.one .all)
  else if m.crlf then .ok (.one (CharSet.compl ⟨[(10, 10), (13, 13)]⟩))
  else .ok (.one (CharSet.compl ⟨[(10, 10)]⟩))

/-- What is neither a group nor a repetition. -/
def primitive (m : Mode) (s : State) : Result (Piece × State) :=
  match s.rest with
  | [] => .ok (⟨.empty, 0, false⟩, s)
  | '[' :: _ => do
    let (set, height, next) ← bracket m s
    .ok (⟨.one set, height, false⟩, next)
  | '\\' :: _ => do
    let (a, next) ← escape m s
    match a with
    | .char c byte => do
      let e ← literal m s.place next c byte
      .ok (⟨e, 0, false⟩, next)
    | .set set => .ok (⟨.one set, 0, false⟩, next)
    | .edge e => .ok (⟨.edge e, 0, false⟩, next)
  | '.' :: _ => do
    let e ← anyChar m s
    .ok (⟨e, 0, false⟩, s.drop 1)
  | '^' :: _ =>
    .ok (⟨.edge (if m.multiLine then .lineStart m.crlf else .textStart), 0, false⟩, s.drop 1)
  | '$' :: _ =>
    .ok (⟨.edge (if m.multiLine then .lineEnd m.crlf else .textEnd), 0, false⟩, s.drop 1)
  | c :: _ => do
    let e ← literal m s.place (s.drop 1) c false
    .ok (⟨e, 0, false⟩, s.drop 1)

/-- Reads alternatives up to the bracket that closes the group, or to the end. `done` are the
alternatives before the present one and `ps` its pieces, each list the last first; `depth` groups
are open. -/
def expression (depth : Nat) : (fuel : Nat) → Mode → State → (done ps : List Piece) →
    Result (Piece × State)
  | 0, _, s, _, _ => s.faultHere 1 .unclosedGroup
  | fuel + 1, m, s, done, ps =>
    let s := settle m s
    match s.rest with
    | [] => .ok (alternatives done ps, s)
    | '|' :: _ => expression depth fuel m (s.drop 1) (sequence ps :: done) []
    | ')' :: _ =>
      if depth = 0 then s.faultHere 1 .unopenedGroup else .ok (alternatives done ps, s)
    | '(' :: _ => do
      match ← groupOpening m s with
      | .setting m next => expression depth fuel m next done (⟨.empty, 0, true⟩ :: ps)
      | .plain inner next => do
        let (body, stop) ← expression (depth + 1) fuel inner next [] []
        if stop.rest.isEmpty then s.faultHere 1 .unclosedGroup
        expression depth fuel m (stop.drop 1) done (⟨body.expr, body.height + 1, false⟩ :: ps)
      | .noted next => do
        let i := next.groups + 1
        let (body, stop) ← expression (depth + 1) fuel m { next with groups := i } [] []
        if stop.rest.isEmpty then s.faultHere 1 .unclosedGroup
        expression depth fuel m (stop.drop 1) done
          (⟨.group i body.expr, body.height + 1, false⟩ :: ps)
    | '*' :: _ => do
      let (ps, next) ← quantify m s.place 0 none (s.drop 1) ps
      expression depth fuel m next done ps
    | '+' :: _ => do
      let (ps, next) ← quantify m s.place 1 none (s.drop 1) ps
      expression depth fuel m next done ps
    | '?' :: _ => do
      let (ps, next) ← quantify m s.place 0 (some 1) (s.drop 1) ps
      expression depth fuel m next done ps
    | '\x7b' :: _ => do
      if ps.isEmpty then s.faultHere 1 .nothingToRepeat
      let (least, extra, next) ← counts m s
      let (ps, next) ← quantify m s.place least extra next ps
      expression depth fuel m next done ps
    | _ => do
      let (p, next) ← primitive m s
      expression depth fuel m next done (p :: ps)

/-- What a node of a compiled pattern takes, in bytes. -/
def nodeSize : Nat := 32

def read (source : Text) (flags : Flags) : Result Expr := do
  let (p, s) ← expression 0 (source.length + 1) { toFlags := flags } { rest := source } [] []
  if nestLimit < p.height then s.fault 0 .tooDeep
  else if sizeLimit < nodeSize * p.expr.weight then s.fault 0 .tooLarge
  else .ok p.expr

end MailMarkup.Pattern.Source
