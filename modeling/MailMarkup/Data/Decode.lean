import MailMarkup.Data.Datum

/-!
# Reading records from data

A record is read field by field, in the order of its definition. Data give the fields by name, each
at most once and others ignored, or as a list in that order. A field that is missing takes its
default. What else is allowed depends on the notation the data were written in.
-/
namespace MailMarkup

/-- What a notation allows: whether a list of fields may have spare items at its end, and what may
stand behind the name of a choice that has nothing to say. -/
structure Dialect where
  spareItems : Bool
  isBare : Datum → Bool

namespace Dialect

def json : Dialect where
  spareItems := false
  isBare
    | .null => true
    | _ => false

def toml : Dialect where
  spareItems := true
  isBare
    | .record [] | .list [] => true
    | _ => false

end Dialect

abbrev Decoder (α : Type) := Dialect → Datum → Option α

namespace Decode

inductive Source where
  | named (members : List (String × Datum))
  | listed (items : List Datum)

abbrev Fields (α : Type) := ReaderT Dialect (StateT Source Option) α

def field {α : Type} (name : String) (decode : Decoder α) (default : α) : Fields α := fun l src =>
  match src with
  | .named ms =>
    match ms.filter (·.1 == name) with
    | [] => some (default, src)
    | [(_, d)] => (decode l d).map fun a => (a, src)
    | _ => none
  | .listed [] => some (default, src)
  | .listed (d :: ds) => (decode l d).map fun a => (a, .listed ds)

/-- A record, from named members or from a list. A moment counts as a record without any of the
fields. -/
def record {α : Type} (fields : Fields α) : Decoder α := fun l d =>
  match d with
  | .record ms => (fields l (.named ms)).map Prod.fst
  | .moment _ => (fields l (.named [])).map Prod.fst
  | .list ds =>
    match fields l (.listed ds) with
    | some (a, .listed spare) => if spare.isEmpty || l.spareItems then some a else none
    | _ => none
  | _ => none

def flag : Decoder Bool
  | _, .flag b => some b
  | _, _ => none

def text : Decoder String
  | _, .text s => some s
  | _, _ => none

/-- A whole number below `2 ^ bits`. -/
def natural (bits : Nat) : Decoder Nat
  | _, .int n => if 0 ≤ n && n < Int.ofNat (Nat.pow 2 bits) then some n.toNat else none
  | _, _ => none

def real : Decoder Float
  | _, .real x => some x
  | _, .int n =>
    if -Int.ofNat (Nat.pow 2 63) ≤ n && n < Int.ofNat (Nat.pow 2 64) then some (Float.ofInt n)
    else none
  | _, _ => none

def optional {α : Type} (decode : Decoder α) : Decoder (Option α)
  | _, .null => some none
  | l, d => (decode l d).map some

def list {α : Type} (decode : Decoder α) : Decoder (List α)
  | l, .list ds => ds.mapM (decode l)
  | _, _ => none

/-- The members of a record by name. A name given again replaces what it had. -/
def table {α : Type} (decode : Decoder α) : Decoder (List (String × α))
  | l, .record ms => ms.mapM fun (k, d) => (decode l d).map (k, ·)
  | _, _ => none

/-- One of the named values, given by its name alone or as the only name of a record. -/
def choice {α : Type} (options : List (String × α)) : Decoder α
  | _, .text s => options.lookup s
  | l, .record [(s, d)] => if l.isBare d then options.lookup s else none
  | _, _ => none

end Decode
end MailMarkup
