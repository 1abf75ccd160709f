import MailMarkup.Data.Json

/-!
# Strings in TOML

Strings stand in double quotes, with escapes, or in single quotes, without. Three quotes open one
that may span lines; a line break right after them is not part of it, and others stay as they are.
-/
namespace MailMarkup.Toml

/-- Control characters other than tabs, which no string or comment may hold. -/
def isControl (c : Char) : Bool := (c.toNat < 32 && c != '\t') || c.toNat == 127

def isGap (c : Char) : Bool := c == ' ' || c == '\t'

def hexChar? (places : Nat) (t : Text) : Option (Char × Text) :=
  let ds := (t.take places).filterMap Json.hex?
  let n := ds.foldl (fun n d => 16 * n + d) 0
  if ds.length = places && (n < 0xD800 || (0xE000 ≤ n && n < 0x110000)) then
    some (Char.ofNat n, t.drop places)
  else none

def escape? : Text → Option (Char × Text)
  | 'b' :: t => some (Char.ofNat 8, t)
  | 't' :: t => some ('\t', t)
  | 'n' :: t => some ('\n', t)
  | 'f' :: t => some (Char.ofNat 12, t)
  | 'r' :: t => some ('\r', t)
  | 'e' :: t => some (Char.ofNat 27, t)
  | '"' :: t => some ('"', t)
  | '\\' :: t => some ('\\', t)
  | 'x' :: t => hexChar? 2 t
  | 'u' :: t => hexChar? 4 t
  | 'U' :: t => hexChar? 8 t
  | _ => none

def afterBreak? : Text → Option Text
  | '\n' :: t => some t
  | '\r' :: '\n' :: t => some t
  | _ => none

/-- What follows blanks and line breaks. A carriage return alone is neither. -/
def afterSpaces : Text → Text
  | '\n' :: t => afterSpaces t
  | '\r' :: '\n' :: t => afterSpaces t
  | ' ' :: t => afterSpaces t
  | '\t' :: t => afterSpaces t
  | t => t

def done (acc : Text) (t : Text) : Option (String × Text) := some (String.ofList acc.reverse, t)

def line? (quote : Char) : (fuel : Nat) → Text → Text → Option (String × Text)
  | 0, _, _ => none
  | _, [], _ => none
  | n + 1, c :: t, acc =>
    if c == quote then done acc t
    else if c == '\\' && quote == '"' then
      match escape? t with
      | some (x, t) => line? quote n t (x :: acc)
      | none => none
    else if isControl c then none
    else line? quote n t (c :: acc)

/-- A string over several lines, after its opening quotes. Up to two quotes more may stand before
those that close it. A backslash at the end of a line swallows the blanks after it. -/
def lines? (quote : Char) : (fuel : Nat) → Text → Text → Option (String × Text)
  | 0, _, _ => none
  | n + 1, t, acc =>
    match Text.after? [quote, quote, quote] t with
    | some t =>
      match Text.after? [quote, quote] t, Text.after? [quote] t with
      | some t, _ => done (quote :: quote :: acc) t
      | none, some t => done (quote :: acc) t
      | none, none => done acc t
    | none =>
      match t with
      | [] => none
      | c :: t =>
        if c == '\\' && quote == '"' then
          match afterBreak? (t.dropWhile isGap) with
          | some t => lines? quote n (afterSpaces t) acc
          | none =>
            match escape? t with
            | some (x, t) => lines? quote n t (x :: acc)
            | none => none
        else
          match afterBreak? (c :: t) with
          | some t => lines? quote n t (if c == '\r' then '\n' :: '\r' :: acc else '\n' :: acc)
          | none => if isControl c then none else lines? quote n t (c :: acc)

def string? (t : Text) : Option (String × Text) :=
  match t with
  | q :: t' =>
    if q == '"' || q == '\'' then
      match Text.after? [q, q, q] t with
      | some t => lines? q (t.length + 1) ((afterBreak? t).getD t) []
      | none => line? q (t'.length + 1) t' []
    else none
  | [] => none

end MailMarkup.Toml
