import MailMarkup.Pattern.Source.State
import MailMarkup.Text.Age
import MailMarkup.Text.Boundary
import MailMarkup.Text.Fold
import MailMarkup.Text.Property
import MailMarkup.Text.Script

/-!
# Backslash sequences

A backslash makes a character literal, gives its number, names a class of characters, or states a
condition on the place.
-/
namespace MailMarkup.Pattern.Source

/-- What a backslash sequence stands for. A character given by two hexadecimal digits is a byte
where only ASCII is meant. -/
inductive Atom where
  | char (c : Char) (byte : Bool)
  | set (s : CharSet)
  | edge (e : Edge)
  deriving DecidableEq, Repr

def wordSet : Scope → CharSet
  | .wide => ⟨[(48, 57), (65, 90), (95, 95), (97, 122)] ++ Text.wordRanges⟩
  | .ascii => ⟨[(48, 57), (65, 90), (95, 95), (97, 122)]⟩

def digitSet : Scope → CharSet
  | .wide => ⟨(48, 57) :: Text.digitRanges⟩
  | .ascii => ⟨[(48, 57)]⟩

def blankSet : Scope → CharSet
  | .wide => ⟨[(9, 13), (32, 32), (0x85, 0x85), (0xA0, 0xA0), (0x1680, 0x1680), (0x2000, 0x200A),
      (0x2028, 0x2029), (0x202F, 0x202F), (0x205F, 0x205F), (0x3000, 0x3000)]⟩
  | .ascii => ⟨[(9, 13), (32, 32)]⟩

/-- A set with its case variants if case does not matter. -/
def folded (m : Mode) (s : CharSet) : CharSet :=
  if !m.ignoreCase then s
  else
    match m.scope with
    | .wide => s.anyCase
    | .ascii => s.anyAsciiCase

/-- A set or its complement, which has to stay inside ASCII where only ASCII is meant. -/
def polar (m : Mode) (start : Nat) (s : State) (negated : Bool) (set : CharSet) : Result CharSet :=
  let set := if negated then set.compl else set
  if m.scope = .ascii && !set.isAscii then s.fault start .badEncoding else .ok set

def hexDigit? (c : Char) : Option Nat :=
  if Text.isDigit c then some (c.toNat - 48)
  else if 'a' ≤ c && c ≤ 'f' then some (c.toNat - 87)
  else if 'A' ≤ c && c ≤ 'F' then some (c.toNat - 55)
  else none

def fixedHex (m : Mode) (start : Nat) : Nat → State → Nat → Result (Nat × State)
  | 0, s, n => .ok (n, s)
  | k + 1, s, n =>
    match s.peek with
    | none => s.fault start .trailingEscape
    | some c =>
      match hexDigit? c with
      | none => s.faultHere 1 .badHexDigit
      | some d => fixedHex m start k (bump m s) (16 * n + d)

/-- Hexadecimal digits up to a closing brace, of which there are `read` so far. -/
def bracedHex (m : Mode) (start : Nat) :
    (fuel : Nat) → State → (read n : Nat) → Result (Nat × State)
  | 0, s, _, _ => s.fault start .trailingEscape
  | fuel + 1, s, read, n =>
    match s.peek with
    | none => s.fault start .trailingEscape
    | some c =>
      if c == '\x7d' then
        if read = 0 then s.fault start .emptyHex else .ok (n, bump m s)
      else
        match hexDigit? c with
        | none => s.faultHere 1 .badHexDigit
        | some d => bracedHex m start fuel (bump m s) (read + 1) (16 * n + d)

/-- A character given by its number, after the letter that says how many digits it has. -/
def hex (m : Mode) (digits : Nat) (s : State) : Result (Atom × State) := do
  let inner := bump m (s.drop 1)
  let braced := inner.peek == some '\x7b'
  let (n, next) ←
    if braced then bracedHex m inner.place inner.rest.length (bump m inner) 0 0
    else fixedHex m s.place digits inner 0
  if n.isValidChar then .ok (.char (Char.ofNat n) (digits = 2 && !braced), next)
  else next.fault s.place .badHex

/-- A name of a property in lower case without separators or a leading `is`. -/
def normalName (t : Text) : String :=
  let lowered := (Text.lower t).filter fun c => c.toNat < 128 && c != ' ' && c != '_' && c != '-'
  match Text.lower (t.take 2), lowered with
  | ['i', 's'], ['i', 's', 'c'] => "isc"
  | ['i', 's'], _ :: _ :: rest => String.ofList rest
  | _, _ => String.ofList lowered

/-- Names of categories and scripts that have no characters. -/
def emptyNames : List String :=
  ["cs", "surrogate", "unknown", "zzzz", "hrkt", "katakanaorhiragana"]

/-- The characters with a property, a category or a script of a name. A few short names of
categories are names of properties too. -/
def named (name : String) : Except Fault CharSet :=
  let found := (if ["cf", "sc", "lc"].contains name then none else Text.property? name).or
    ((Text.category? name).or (Text.script? name))
  match found with
  | some set => .ok set
  | none => .error (if emptyNames.contains name then .unknownValue else .unknownProperty)

/-- The properties that have other values than yes and no: their short and long names, and the
characters for which they have a value. -/
def valuedProperties : List (String × String × (String → Option CharSet)) := [
  ("gc", "generalcategory", Text.category?), ("sc", "script", Text.script?),
  ("scx", "scriptextensions", Text.scriptUsage?), ("age", "age", Text.age?),
  ("gcb", "graphemeclusterbreak", Text.clusterRole?), ("wb", "wordbreak", Text.wordRole?),
  ("sb", "sentencebreak", Text.sentenceRole?)]

def valued (name value : String) : Except Fault CharSet :=
  match valuedProperties.find? fun (short, long, _) => short == name || long == name with
  | some (_, _, find) =>
    match find value with
    | some set => .ok set
    | none => .error .unknownValue
  | none => .error (if Text.isPlainProperty name then .unknownValue else .unknownProperty)

/-- The characters that what stands in a property's braces is about. The sign for another value has
the meaning of the sign for the value. -/
def propertyNamed (t : Text) : Except Fault CharSet :=
  match Text.cut? ['!', '='] t, Text.cut? [':'] t, Text.cut? ['='] t with
  | some (n, v), _, _ => valued (normalName n) (normalName v)
  | none, some (n, v), _ => valued (normalName n) (normalName v)
  | none, none, some (n, v) => valued (normalName n) (normalName v)
  | none, none, none => named (normalName t)

def bracedName (m : Mode) (start : Nat) : (fuel : Nat) → State → Text → Result (Text × State)
  | 0, s, _ => s.fault start .trailingEscape
  | fuel + 1, s, acc =>
    match s.peek with
    | none => s.fault start .trailingEscape
    | some c =>
      if c == '\x7d' then .ok (acc.reverse, s.drop 1)
      else bracedName m start fuel (bump m s) (c :: acc)

def property (m : Mode) (s : State) : Result (Atom × State) := do
  let negated := s.peek.any fun c => c == 'P'
  let inner := bump m s
  let (name, next) ← match inner.peek with
    | none => inner.fault (s.place - 1) .trailingEscape
    | some '\x7b' => bracedName m (s.place - 1) inner.rest.length (bump m inner) []
    | some '\\' => inner.faultHere 1 .badProperty
    | some c => .ok ([c], bump m inner)
  if m.scope = .ascii then next.fault (s.place - 1) .notInAscii
  else
    match propertyNamed name with
    | .error f => next.fault (s.place - 1) f
    | .ok set =>
      let set := folded m set
      .ok (.set (if negated then set.compl else set), next)

/-- The classes with a letter of their own: digits, blanks and word characters. -/
def letterClass? (scope : Scope) : Char → Option (CharSet × Bool)
  | 'd' => some (digitSet scope, false)
  | 'D' => some (digitSet scope, true)
  | 's' => some (blankSet scope, false)
  | 'S' => some (blankSet scope, true)
  | 'w' => some (wordSet scope, false)
  | 'W' => some (wordSet scope, true)
  | _ => none

/-- Every ASCII character but letters, digits and angle brackets may be made literal. -/
def isEscapable (c : Char) : Bool :=
  c.toNat < 128 && !Text.isLetter c && !Text.isDigit c && c != '<' && c != '>'

def control? : Char → Option Char
  | 'n' => some '\n'
  | 't' => some '\t'
  | 'r' => some '\r'
  | 'f' => some (Char.ofNat 12)
  | 'v' => some (Char.ofNat 11)
  | 'a' => some (Char.ofNat 7)
  | _ => none

def edge? (scope : Scope) : Char → Option Edge
  | 'A' => some .textStart
  | 'z' => some .textEnd
  | 'b' => some (.wordEdge scope)
  | 'B' => some (.notWordEdge scope)
  | '<' => some (.wordStart scope)
  | '>' => some (.wordEnd scope)
  | _ => none

def namedEdge? (scope : Scope) (name : String) : Option Edge :=
  if name == "start" then some (.wordStart scope)
  else if name == "end" then some (.wordEnd scope)
  else if name == "start-half" then some (.noWordBefore scope)
  else if name == "end-half" then some (.noWordAfter scope)
  else none

def isEdgeNameChar (c : Char) : Bool := Text.isLetter c || c == '-'

def edgeName (m : Mode) : (fuel : Nat) → State → Text → Text × State
  | 0, s, acc => (acc.reverse, s)
  | fuel + 1, s, acc =>
    match s.peek with
    | some c => if isEdgeNameChar c then edgeName m fuel (bump m s) (c :: acc) else (acc.reverse, s)
    | none => (acc.reverse, s)

def wordEdge (m : Mode) (start : Nat) (s : State) : Result (Atom × State) :=
  if s.peek != some '\x7b' then .ok (.edge (.wordEdge m.scope), s)
  else
    let inner := bump m s
    match inner.peek with
    | none => inner.fault start .unclosedWordEdgeOrCount
    | some c =>
      if !isEdgeNameChar c then .ok (.edge (.wordEdge m.scope), s)
      else
        let (name, next) := edgeName m inner.rest.length inner []
        if next.peek != some '\x7d' then next.fault s.place .unclosedWordEdge
        else
          match namedEdge? m.scope (String.ofList name) with
          | some e => .ok (.edge e, next.drop 1)
          | none => next.fault inner.place .unknownWordEdge

def escape (m : Mode) (s : State) : Result (Atom × State) :=
  match s.rest.drop 1 with
  | [] => s.faultHere 1 .trailingEscape
  | c :: _ =>
    if Text.isDigit c then s.faultHere 2 .backreference
    else if c == 'x' then hex m 2 s
    else if c == 'u' then hex m 4 s
    else if c == 'U' then hex m 8 s
    else if c == 'p' || c == 'P' then property m (s.drop 1)
    else if c == 'b' then wordEdge m s.place (s.drop 2)
    else
      match letterClass? m.scope c, control? c, edge? m.scope c with
      | some (set, negated), _, _ => do
        let set ← polar m s.place (s.drop 2) negated set
        .ok (.set set, s.drop 2)
      | none, some c, _ => .ok (.char c false, s.drop 2)
      | none, none, some e => .ok (.edge e, s.drop 2)
      | none, none, none =>
        if isEscapable c then .ok (.char c false, s.drop 2) else s.faultHere 2 .unknownEscape

end MailMarkup.Pattern.Source
