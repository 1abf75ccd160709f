import MailMarkup.Data.Toml.Quoted
import MailMarkup.Data.Toml.Scalar
import MailMarkup.Data.Toml.Table

/-!
# TOML

Reading refuses what the notation does not allow, keys given twice, values nested past 80 levels and
keys of more than 80 parts.
-/
namespace MailMarkup.Toml

def skipGaps (t : Text) : Text := t.dropWhile isGap

def afterComment? : Text → Option Text
  | [] => some []
  | c :: t =>
    match afterBreak? (c :: t) with
    | some _ => some (c :: t)
    | none => if isControl c then none else afterComment? t

def skipLines? : (fuel : Nat) → Text → Option Text
  | 0, _ => none
  | n + 1, t =>
    let t := skipGaps t
    match afterBreak? t with
    | some t => skipLines? n t
    | none =>
      match t with
      | '#' :: t => (afterComment? t).bind (skipLines? n)
      | _ => some t

def afterLine? (t : Text) : Option Text :=
  let rest? := match skipGaps t with
    | '#' :: t => afterComment? t
    | t => some t
  match rest? with
  | some [] => some []
  | some t => afterBreak? t
  | none => none

def isBare (c : Char) : Bool := Text.isLetter c || Text.isDigit c || c == '_' || c == '-'

def keyPart? (t : Text) : Option (String × Text) :=
  match t with
  | [] => none
  | c :: t' =>
    if c == '"' || c == '\'' then
      if Text.startsWith t [c, c, c] then none else line? c (t'.length + 1) t' []
    else if isBare c then some (String.ofList (t.takeWhile isBare), t.dropWhile isBare)
    else none

def maxDepth : Nat := 80

/-- A key: the parts before its last point, last first, and its last part. -/
def key? : (fuel : Nat) → List String → Text → Option (List String × String × Text)
  | 0, _, _ => none
  | n + 1, path, t =>
    match keyPart? (skipGaps t) with
    | none => none
    | some (k, t) =>
      match skipGaps t with
      | '.' :: t => if path.length + 1 < maxDepth then key? n (k :: path) t else none
      | t => some (path.reverse, k, t)

/-- A key in a table in braces and what follows its equals sign, around which lines may break. -/
def assigned? (t : Text) : Option (List String × String × Text) :=
  match key? (t.length + 1) [] t with
  | none => none
  | some (path, k, t) =>
    match skipLines? (t.length + 1) t with
    | some ('=' :: t) => (skipLines? (t.length + 1) t).map fun t => (path, k, t)
    | _ => none

mutual

/-- A value; `depth` more levels may open. -/
def value? : (fuel depth : Nat) → Text → Option (Datum × Text)
  | 0, _, _ => none
  | fuel + 1, depth, t =>
    match t with
    | '[' :: t =>
      match depth with
      | 0 => none
      | depth + 1 => items? fuel depth t []
    | '{' :: t =>
      match depth with
      | 0 => none
      | depth + 1 => members? fuel depth t []
    | '"' :: _ => (string? t).map fun (s, t) => (.text s, t)
    | '\'' :: _ => (string? t).map fun (s, t) => (.text s, t)
    | t => scalar? t

def items? : (fuel depth : Nat) → Text → List Datum → Option (Datum × Text)
  | 0, _, _, _ => none
  | fuel + 1, depth, t, acc =>
    match skipLines? (t.length + 1) t with
    | none => none
    | some (']' :: t) => some (.list acc.reverse, t)
    | some t =>
      match value? fuel depth t with
      | none => none
      | some (d, t) =>
        match skipLines? (t.length + 1) t with
        | some (',' :: t) => items? fuel depth t (d :: acc)
        | some (']' :: t) => some (.list (d :: acc).reverse, t)
        | _ => none

def members? : (fuel depth : Nat) → Text → Members → Option (Datum × Text)
  | 0, _, _, _ => none
  | fuel + 1, depth, t, ms =>
    match skipLines? (t.length + 1) t with
    | none => none
    | some ('}' :: t) => some (.record (membersToData ms), t)
    | some t =>
      match assigned? t with
      | some (path, k, t) =>
        match value? fuel depth t with
        | none => none
        | some (d, t) =>
          match assign d true path k ms, skipLines? (t.length + 1) t with
          | some ms, some (',' :: t) => members? fuel depth t ms
          | some ms, some ('}' :: t) => some (.record (membersToData ms), t)
          | _, _ => none
      | _ => none

end

/-- A header after its opening bracket: the path and name of its table. -/
def header? (closing t : Text) : Option (List String × String × Text) :=
  match key? (t.length + 1) [] t with
  | none => none
  | some (path, k, t) =>
    ((Text.after? closing t).bind afterLine?).map fun t => (path, k, t)

/-- The lines of a document. `at_` is the path of the table that is open. -/
def lines : (fuel : Nat) → (at_ : List String) → Members → Text → Option Members
  | 0, _, _, _ => none
  | fuel + 1, at_, ms, t =>
    match skipLines? (t.length + 1) t with
    | none => none
    | some [] => some ms
    | some ('[' :: '[' :: t) =>
      match header? [']', ']'] t with
      | none => none
      | some (path, k, t) =>
        (within (openNext k) path ms).bind fun ms => lines fuel (path ++ [k]) ms t
    | some ('[' :: t) =>
      match header? [']'] t with
      | none => none
      | some (path, k, t) =>
        (within (openTable k) path ms).bind fun ms => lines fuel (path ++ [k]) ms t
    | some t =>
      match key? (t.length + 1) [] t with
      | some (path, k, '=' :: t) =>
        match value? (2 * t.length + 2) maxDepth (skipGaps t) with
        | none => none
        | some (d, t) =>
          match within (assign d true path k) at_ ms, afterLine? t with
          | some ms, some t => lines fuel at_ ms t
          | _, _ => none
      | _ => none

/-- The record a document holds. A byte order mark before it is passed over. -/
def read? (t : Text) : Option Datum :=
  let t := (Text.after? [Char.ofNat 0xFEFF] t).getD t
  (lines (t.length + 1) [] [] t).map fun ms => .record (membersToData ms)

end MailMarkup.Toml
