/-!
# Text as a list of characters

Everything the library reads is a list of Unicode characters, names of files too. This file has the
few operations shared by every reader: blanks and trimming, ASCII case, byte length, searching and
splitting.
-/
namespace MailMarkup

abbrev Text := List Char

namespace Text

/-- The characters with the White_Space property. -/
def isBlank (c : Char) : Bool :=
  let n := c.val
  (9 ≤ n && n ≤ 13) || n == 32 || n == 0x85 || n == 0xA0 || n == 0x1680 ||
    (0x2000 ≤ n && n ≤ 0x200A) || n == 0x2028 || n == 0x2029 || n == 0x202F ||
    n == 0x205F || n == 0x3000

def trimStart (t : Text) : Text := t.dropWhile isBlank

def trimEnd (t : Text) : Text := (t.reverse.dropWhile isBlank).reverse

def trim (t : Text) : Text := trimEnd (trimStart t)

def isUpper (c : Char) : Bool := 'A' ≤ c && c ≤ 'Z'

def isLower (c : Char) : Bool := 'a' ≤ c && c ≤ 'z'

def isLetter (c : Char) : Bool := isLower c || isUpper c

def isDigit (c : Char) : Bool := '0' ≤ c && c ≤ '9'

/-- ASCII lower case; every other character is kept. -/
def lowerChar (c : Char) : Char := if isUpper c then Char.ofNat (c.toNat + 32) else c

def lower (t : Text) : Text := t.map lowerChar

/-- Equality up to the case of ASCII letters. -/
def sameLetters (a b : Text) : Bool := lower a == lower b

/-- Length of the UTF-8 encoding. -/
def byteSize (t : Text) : Nat := t.foldl (fun n c => n + c.utf8Size) 0

def toBytes (t : Text) : ByteArray := (String.ofList t).toUTF8

def ofBytes? (b : ByteArray) : Option Text := (String.fromUTF8? b).map String.toList

/-- What follows `pre` when the text starts with it. -/
def after? : (pre t : Text) → Option Text
  | [], t => some t
  | _ :: _, [] => none
  | p :: pre, c :: t => if p == c then after? pre t else none

def startsWith (t pre : Text) : Bool := (after? pre t).isSome

/-- The text before and after the first occurrence of `needle`, where what was already passed over is
given last first. -/
def cutAt (needle : Text) : Text → Text → Option (Text × Text)
  | [], seen => if needle.isEmpty then some (seen.reverse, []) else none
  | c :: t, seen =>
    match after? needle (c :: t) with
    | some rest => some (seen.reverse, rest)
    | none => cutAt needle t (c :: seen)

/-- The text before and after the first occurrence of `needle`. -/
def cut? (needle t : Text) : Option (Text × Text) := cutAt needle t []

def contains (t needle : Text) : Bool := (cut? needle t).isSome

/-- The pieces between the occurrences of a separator character; never empty. -/
def splitOn (sep : Char) (t : Text) : List Text :=
  let r := t.foldl (fun (done, cur) c =>
    if c == sep then (cur.reverse :: done, []) else (done, c :: cur)) (([], []) : List Text × Text)
  (r.2.reverse :: r.1).reverse

def join (sep : Text) : List Text → Text
  | [] => []
  | t :: ts => t ++ ts.flatMap (sep ++ ·)

private def replaceLoop (needle by_ : Text) : Nat → Text → Text → Text
  | 0, t, out => out.reverse ++ t
  | n + 1, t, out =>
    match cut? needle t with
    | some (pre, rest) => replaceLoop needle by_ n rest (by_.reverse ++ (pre.reverse ++ out))
    | none => out.reverse ++ t

def replace (needle by_ t : Text) : Text := replaceLoop needle by_ t.length t []

def replaceChar (c : Char) (by_ t : Text) : Text := t.flatMap fun x => if x == c then by_ else [x]

end Text
end MailMarkup
