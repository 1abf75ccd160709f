import MailMarkup.Data.Datum
import MailMarkup.Data.Json
import MailMarkup.Decimal.Read

/-!
# Numbers and moments in TOML
-/
namespace MailMarkup.Toml

/-- Digits, perhaps divided by underscores, each of which stands between two digits. -/
def digits? (isDigit : Char → Bool) (t : Text) : Option Text :=
  let groups := Text.splitOn '_' t
  if groups.all fun g => !g.isEmpty && g.all isDigit then some groups.flatten else none

def sign (t : Text) : Bool × Text :=
  match t with
  | '-' :: t => (true, t)
  | '+' :: t => (false, t)
  | _ => (false, t)

def hasLeadingZero (digits : Text) : Bool := digits.head? == some '0' && digits.length != 1

def numberIn (base : Nat) (digits : Text) : Nat :=
  digits.foldl (fun n c => base * n + (Json.hex? c).getD 0) 0

def based? (base : Nat) (t : Text) : Option Nat :=
  (digits? (fun c => (Json.hex? c).any (· < base)) t).map (numberIn base)

def fitted? (n : Int) : Option Datum :=
  if -Int.ofNat (Nat.pow 2 127) ≤ n && n < Int.ofNat (Nat.pow 2 128) then some (.int n) else none

def integer? (t : Text) : Option Datum :=
  match t with
  | '0' :: 'x' :: t => (based? 16 t).bind fun n => fitted? n
  | '0' :: 'o' :: t => (based? 8 t).bind fun n => fitted? n
  | '0' :: 'b' :: t => (based? 2 t).bind fun n => fitted? n
  | _ =>
    let (negative, t) := sign t
    match digits? Text.isDigit t with
    | none => none
    | some ds =>
      if hasLeadingZero ds then none
      else
        let n := Int.ofNat (numberIn 10 ds)
        fitted? (if negative then -n else n)

/-- A number with a fraction or an exponent, unless it is too large for a double. -/
def fraction? (t : Text) : Option Datum :=
  let (negative, t) := sign t
  let mantissa := t.takeWhile fun c => c != 'e' && c != 'E'
  let exponent? : Option Int := match t.dropWhile fun c => c != 'e' && c != 'E' with
    | [] => some 0
    | _ :: t =>
      let (negative, t) := sign t
      (digits? Text.isDigit t).map fun ds =>
        let n := Int.ofNat (numberIn 10 ds)
        if negative then -n else n
  let parts? : Option (Text × Text) := match Text.cut? ['.'] mantissa with
    | none =>
      if mantissa.length = t.length then none
      else (digits? Text.isDigit mantissa).map fun whole => (whole, [])
    | some (whole, part) =>
      (digits? Text.isDigit whole).bind fun whole =>
        (digits? Text.isDigit part).map fun part => (whole, part)
  match exponent?, parts? with
  | some e, some (whole, part) =>
    if hasLeadingZero whole then none
    else
      let x := Decimal.toFloat (numberIn 10 (whole ++ part)) (e - Int.ofNat part.length)
      if x.isInf then none else some (.real (if negative then -x else x))
  | _, _ => none

def special? (t : Text) : Option Datum :=
  let (negative, t) := sign t
  let signed (x : Float) : Option Datum := some (.real (if negative then -x else x))
  if t = ['i', 'n', 'f'] then signed (1.0 / 0.0)
  else if t = ['n', 'a', 'n'] then signed (0.0 / 0.0)
  else none

/-! ## Moments -/

def number? (places : Nat) (t : Text) : Option (Nat × Text) :=
  match Decimal.natural? (t.take places) with
  | some n => if places ≤ t.length then some (n, t.drop places) else none
  | none => none

def isLeap (year : Nat) : Bool := year % 4 == 0 && (year % 100 != 0 || year % 400 == 0)

def daysIn (year month : Nat) : Nat :=
  if month = 2 then (if isLeap year then 29 else 28)
  else if month = 4 || month = 6 || month = 9 || month = 11 then 30
  else 31

def afterDate? (t : Text) : Option Text :=
  match number? 4 t with
  | some (year, '-' :: t) =>
    match number? 2 t with
    | some (month, '-' :: t) =>
      match number? 2 t with
      | some (day, t) =>
        if 1 ≤ month && month ≤ 12 && 1 ≤ day && day ≤ daysIn year month then some t else none
      | none => none
    | _ => none
  | _ => none

/-- What follows a time of day, whose seconds may be left out. -/
def afterTime? (t : Text) : Option Text :=
  match number? 2 t with
  | some (hour, ':' :: t) =>
    match number? 2 t with
    | some (minute, t) =>
      if 23 < hour || 59 < minute then none
      else
        match t with
        | ':' :: t =>
          match number? 2 t with
          | some (second, t) =>
            if 60 < second then none
            else
              match t with
              | '.' :: t =>
                if t.takeWhile Text.isDigit = [] then none else some (t.dropWhile Text.isDigit)
              | _ => some t
          | none => none
        | _ => some t
    | none => none
  | _ => none

def afterOffset? (t : Text) : Option Text :=
  match t with
  | 'Z' :: t => some t
  | 'z' :: t => some t
  | c :: t =>
    if c == '+' || c == '-' then
      match number? 2 t with
      | some (hour, ':' :: t) =>
        match number? 2 t with
        | some (minute, t) => if 23 < hour || 59 < minute then none else some t
        | none => none
      | _ => none
    else none
  | [] => none

def isMoment (t : Text) : Bool :=
  match afterDate? t with
  | some [] => true
  | some (c :: t) =>
    (c == 'T' || c == 't' || c == ' ') &&
      match afterTime? t with
      | some [] => true
      | some t => afterOffset? t == some []
      | none => false
  | none => afterTime? t == some []

def moment? (t : Text) : Option Datum :=
  if isMoment t then some (.moment (String.ofList t)) else none

/-! ## Words -/

def isWordChar (c : Char) : Bool :=
  Text.isLetter c || Text.isDigit c || c == '_' || c == '+' || c == '-' || c == '.' || c == ':'

def word? (t : Text) : Option Datum :=
  if t = ['t', 'r', 'u', 'e'] then some (.flag true)
  else if t = ['f', 'a', 'l', 's', 'e'] then some (.flag false)
  else (integer? t).or <| (special? t).or <| (fraction? t).or <| moment? t

/-- A word at the start of a text. A date takes a time along that follows it after a space. -/
def scalar? (t : Text) : Option (Datum × Text) :=
  let w := t.takeWhile isWordChar
  let rest := t.dropWhile isWordChar
  match afterDate? w, rest with
  | some [], ' ' :: c :: more =>
    if Text.isDigit c then
      let time := (c :: more).takeWhile isWordChar
      (word? (w ++ ' ' :: time)).map fun d => (d, (c :: more).dropWhile isWordChar)
    else (word? w).map fun d => (d, rest)
  | _, _ => (word? w).map fun d => (d, rest)

end MailMarkup.Toml
