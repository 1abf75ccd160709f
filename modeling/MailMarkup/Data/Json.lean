import MailMarkup.Data.Datum
import MailMarkup.Decimal.Read
import MailMarkup.Decimal.Shortest

/-!
# JSON

Reading refuses what the notation does not allow. Whole numbers of up to 64 bits stay whole numbers;
all others become doubles. A number too large for a double, a text with half of a pair of surrogates
and a record with such a name are allowed and unusable.
-/
namespace MailMarkup.Json

def isSpace (c : Char) : Bool := c == ' ' || c == '\n' || c == '\t' || c == '\r'

def skip (t : Text) : Text := t.dropWhile isSpace

def hex? (c : Char) : Option Nat :=
  if Text.isDigit c then some (c.toNat - 48)
  else if 'a' ≤ c && c ≤ 'f' then some (c.toNat - 87)
  else if 'A' ≤ c && c ≤ 'F' then some (c.toNat - 55)
  else none

def hex4? : Text → Option (Nat × Text)
  | a :: b :: c :: d :: t =>
    match hex? a, hex? b, hex? c, hex? d with
    | some a, some b, some c, some d => some (((a * 16 + b) * 16 + c) * 16 + d, t)
    | _, _, _, _ => none
  | _ => none

/-- A character given by its number, in two halves if it is above 16 bits; none if its other half is
missing. -/
def unicode? (t : Text) : Option (Option Char × Text) :=
  match hex4? t with
  | none => none
  | some (n, t) =>
    if n < 0xD800 || 0xE000 ≤ n then some (some (Char.ofNat n), t)
    else
      match t with
      | '\\' :: 'u' :: t' =>
        match hex4? t' with
        | some (m, t') =>
          if n < 0xDC00 && 0xDC00 ≤ m && m < 0xE000 then
            some (some (Char.ofNat (0x10000 + (n - 0xD800) * 1024 + (m - 0xDC00))), t')
          else some (none, t)
        | none => none
      | _ => some (none, t)

def escape? : Text → Option (Option Char × Text)
  | '"' :: t => some ('"', t)
  | '\\' :: t => some ('\\', t)
  | '/' :: t => some ('/', t)
  | 'b' :: t => some (Char.ofNat 8, t)
  | 'f' :: t => some (Char.ofNat 12, t)
  | 'n' :: t => some ('\n', t)
  | 'r' :: t => some ('\r', t)
  | 't' :: t => some ('\t', t)
  | 'u' :: t => unicode? t
  | _ => none

/-- A string after its opening quote; none instead of it if a character of it is none. -/
def string? : Nat → Text → Option Text → Option (Option String × Text)
  | 0, _, _ => none
  | _ + 1, [], _ => none
  | n + 1, c :: t, acc =>
    if c == '"' then some (acc.map fun acc => String.ofList acc.reverse, t)
    else if c == '\\' then
      match escape? t with
      | some (x, t) => string? n t (x.bind fun x => acc.map (x :: ·))
      | none => none
    else if c.toNat < 32 then none
    else string? n t (acc.map (c :: ·))

/-- Digits collected into 64 bits: the number, and by how many places the rest was too long. -/
def collect (digits : Text) (start : Nat) : Nat × Nat × Nat :=
  digits.foldl (fun (n, used, beyond) c =>
    let n' := 10 * n + (c.toNat - 48)
    if beyond = 0 && n' < Nat.pow 2 64 then (n', used + 1, 0)
    else (n, used, beyond + 1)) (start, 0, 0)

def scale? (digits : Nat) (e : Int) : Option Float :=
  let x := Float.ofNat digits
  let power (n : Nat) : Float := Float.ofScientific 1 false n
  if 308 < e then (if digits = 0 then some 0.0 else none)
  else if 0 ≤ e then
    let y := x * power e.toNat
    if y.isInf then none else some y
  else if -308 ≤ e then some (x / power (-e).toNat)
  else if -616 ≤ e then some (x / power 308 / power (-e - 308).toNat)
  else some 0.0

def realOr : Option Float → Datum
  | some x => .real x
  | none => .unusable

/-- A number. Of the digits before and after the point as many are read as 64 bits hold, counted
apart, so a digit after the point may take the place of one before it that did not fit. -/
def number? (t : Text) : Option (Datum × Text) :=
  let (negative, t) := match t with
    | '-' :: t => (true, t)
    | _ => (false, t)
  let whole := t.takeWhile Text.isDigit
  let t := t.dropWhile Text.isDigit
  if whole.isEmpty || (whole.head? == some '0' && whole.length != 1) then none
  else
    let fraction? : Option (Option Text × Text) := match t with
      | '.' :: t =>
        if t.takeWhile Text.isDigit = [] then none
        else some (some (t.takeWhile Text.isDigit), t.dropWhile Text.isDigit)
      | _ => some (none, t)
    match fraction? with
    | none => none
    | some (fraction, t) =>
      let exponent? : Option (Option Int × Text) := match t with
        | c :: t =>
          if c == 'e' || c == 'E' then
            let (neg, t) := match t with
              | '+' :: t => (false, t)
              | '-' :: t => (true, t)
              | _ => (false, t)
            match Decimal.natural? (t.takeWhile Text.isDigit) with
            | none => none
            | some n =>
              some (some (if neg then -Int.ofNat n else Int.ofNat n), t.dropWhile Text.isDigit)
          else some (none, c :: t)
        | [] => some (none, [])
      match exponent? with
      | none => none
      | some (exponent, t) =>
        let (n, _, beyond) := collect whole 0
        let signed (x : Float) : Float := if negative then -x else x
        match fraction, exponent with
        | none, none =>
          if beyond = 0 then
            if negative then
              if n = 0 || Nat.pow 2 63 < n then some (.real (-Float.ofNat n), t)
              else some (.int (-Int.ofNat n), t)
            else some (.int n, t)
          else some (realOr ((scale? n beyond).map signed), t)
        | _, _ =>
          let (n, used, _) := collect (fraction.getD []) n
          let e : Int := Int.ofNat beyond - Int.ofNat used + exponent.getD 0
          some (realOr ((scale? n e).map signed), t)

def word? (w : String) (d : Datum) (t : Text) : Option (Datum × Text) :=
  (Text.after? w.toList t).map fun t => (d, t)

/-- A record, unless one of its names is none. -/
def recordOf (members : List (Option String × Datum)) : Datum :=
  match members.mapM fun (name, d) => name.map (·, d) with
  | some ms => .record ms
  | none => .unusable

def textOf : Option String → Datum
  | some s => .text s
  | none => .unusable

mutual

def value? : (fuel : Nat) → Text → Option (Datum × Text)
  | 0, _ => none
  | fuel + 1, t =>
    match skip t with
    | 'n' :: t => word? "ull" .null t
    | 't' :: t => word? "rue" (.flag true) t
    | 'f' :: t => word? "alse" (.flag false) t
    | '"' :: t => (string? (t.length + 1) t (some [])).map fun (s, t) => (textOf s, t)
    | '[' :: t =>
      match skip t with
      | ']' :: t => some (.list [], t)
      | t => items? fuel t []
    | '{' :: t =>
      match skip t with
      | '}' :: t => some (.record [], t)
      | t => members? fuel t []
    | t => number? t

def items? : (fuel : Nat) → Text → List Datum → Option (Datum × Text)
  | 0, _, _ => none
  | fuel + 1, t, acc =>
    match value? fuel t with
    | none => none
    | some (d, t) =>
      match skip t with
      | ',' :: t => items? fuel t (d :: acc)
      | ']' :: t => some (.list (d :: acc).reverse, t)
      | _ => none

def members? : (fuel : Nat) → Text → List (Option String × Datum) → Option (Datum × Text)
  | 0, _, _ => none
  | fuel + 1, t, acc =>
    match skip t with
    | '"' :: t =>
      match string? (t.length + 1) t (some []) with
      | none => none
      | some (name, t) =>
        match skip t with
        | ':' :: t =>
          match value? fuel t with
          | none => none
          | some (d, t) =>
            match skip t with
            | ',' :: t => members? fuel t ((name, d) :: acc)
            | '}' :: t => some (recordOf ((name, d) :: acc).reverse, t)
            | _ => none
        | _ => none
    | _ => none

end

def read? (t : Text) : Option Datum :=
  match value? (2 * t.length + 2) t with
  | some (d, rest) => if (skip rest).isEmpty then some d else none
  | none => none

def hexDigits : List Char := "0123456789abcdef".toList

def quotedChar (c : Char) : List Char :=
  if c == '"' then ['\\', '"']
  else if c == '\\' then ['\\', '\\']
  else if c == '\n' then ['\\', 'n']
  else if c == '\r' then ['\\', 'r']
  else if c == '\t' then ['\\', 't']
  else if c.toNat == 8 then ['\\', 'b']
  else if c.toNat == 12 then ['\\', 'f']
  else if c.toNat < 32 then
    ['\\', 'u', '0', '0', hexDigits.getD (c.toNat / 16) '0', hexDigits.getD (c.toNat % 16) '0']
  else [c]

def quote (s : String) : String :=
  "\"" ++ String.ofList (s.toList.flatMap quotedChar) ++ "\""

def real (x : Float) : String := (Decimal.data? x).getD "null"

def newline (indent : Nat) : String := "\n" ++ "".pushn ' ' (2 * indent)

mutual

/-- A value over several lines, two spaces deeper for each level. -/
def pretty (indent : Nat) : Datum → String
  | .null | .unusable => "null"
  | .flag b => if b then "true" else "false"
  | .int n => toString n
  | .real x => real x
  | .text s => quote s
  | .moment s => quote s
  | .list [] => "[]"
  | .list (d :: ds) =>
    "[" ++ newline (indent + 1) ++ pretty (indent + 1) d ++ prettyItems (indent + 1) ds ++
      newline indent ++ "]"
  | .record [] => "\x7b\x7d"
  | .record ((k, d) :: ms) =>
    "\x7b" ++ newline (indent + 1) ++ quote k ++ ": " ++ pretty (indent + 1) d ++
      prettyMembers (indent + 1) ms ++ newline indent ++ "\x7d"

def prettyItems (indent : Nat) : List Datum → String
  | [] => ""
  | d :: ds => "," ++ newline indent ++ pretty indent d ++ prettyItems indent ds

def prettyMembers (indent : Nat) : List (String × Datum) → String
  | [] => ""
  | (k, d) :: ms =>
    "," ++ newline indent ++ quote k ++ ": " ++ pretty indent d ++ prettyMembers indent ms

end

mutual

def compact (out : String) : Datum → String
  | .null | .unusable => out ++ "null"
  | .flag b => out ++ if b then "true" else "false"
  | .int n => out ++ toString n
  | .real x => out ++ real x
  | .text s => out ++ quote s
  | .moment s => out ++ quote s
  | .list [] => out ++ "[]"
  | .list (d :: ds) => compactItems (compact (out ++ "[") d) ds
  | .record [] => out ++ "\x7b\x7d"
  | .record ((k, d) :: ms) => compactMembers (compact (out ++ "\x7b" ++ quote k ++ ":") d) ms

def compactItems (out : String) : List Datum → String
  | [] => out ++ "]"
  | d :: ds => compactItems (compact (out ++ ",") d) ds

def compactMembers (out : String) : List (String × Datum) → String
  | [] => out ++ "\x7d"
  | (k, d) :: ms => compactMembers (compact (out ++ "," ++ quote k ++ ":") d) ms

end

end MailMarkup.Json
