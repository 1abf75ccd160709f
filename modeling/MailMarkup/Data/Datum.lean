/-!
# Plain data

What settings are written in and reports are written to, whichever notation is used. A record keeps
its members in the order in which they were written, repeated ones included. What is written
correctly but stands for no value, such as a number beyond all doubles, is `unusable`: it may be
skipped, but nothing can be read from it.
-/
namespace MailMarkup

inductive Datum where
  | null
  | flag (b : Bool)
  | int (n : Int)
  | real (x : Float)
  | text (s : String)
  | moment (s : String)
  | unusable
  | list (items : List Datum)
  | record (members : List (String × Datum))
  deriving Inhabited

namespace Datum

/-- The member last written under a name. -/
def get? (d : Datum) (name : String) : Option Datum :=
  match d with
  | .record ms => (ms.reverse.find? (·.1 == name)).map Prod.snd
  | _ => none

def ofNat (n : Nat) : Datum := .int n

def ofOption {α : Type} (f : α → Datum) : Option α → Datum
  | some a => f a
  | none => .null

def texts (ss : List String) : Datum := .list (ss.map .text)

end Datum
end MailMarkup
