import MailMarkup.Data.Datum

/-!
# Tables in TOML

A document builds up a tree of tables. A table can be opened by its header once; tables above it
come to be without one, and may be opened later. Dotted keys build tables of their own, which no
header may open. A value never turns into a table.
-/
namespace MailMarkup.Toml

inductive Origin where
  /-- Opened by its own header. -/
  | header
  /-- Above a table that has been opened. -/
  | implied
  /-- Built by dotted keys. -/
  | dotted
  deriving DecidableEq, Repr

inductive Node where
  | value (d : Datum)
  | table (origin : Origin) (members : List (String × Node))
  /-- A list of tables, each opened by a header. -/
  | tables (earlier : List (List (String × Node))) (last : List (String × Node))

abbrev Members := List (String × Node)

def Members.get? (key : String) (ms : Members) : Option Node := ms.lookup key

def Members.put (key : String) (n : Node) : Members → Members
  | [] => [(key, n)]
  | (k, old) :: ms => if k = key then (k, n) :: ms else (k, old) :: Members.put key n ms

/-- Changes the members of the table that a path leads to. Tables that are missing on the way are
implied. -/
def within (f : Members → Option Members) : List String → Members → Option Members
  | [], ms => f ms
  | p :: ps, ms =>
    match ms.get? p with
    | none => (within f ps []).map fun sub => ms.put p (.table .implied sub)
    | some (.table o sub) => (within f ps sub).map fun sub => ms.put p (.table o sub)
    | some (.tables earlier last) =>
      (within f ps last).map fun last => ms.put p (.tables earlier last)
    | some (.value _) => none

/-- Gives a value to a dotted key. The table it ends in takes it if it is `free` to: it is the one
that is open, or one that dotted keys built. -/
def assign (d : Datum) : (free : Bool) → List String → String → Members → Option Members
  | free, [], key, ms =>
    if free && (ms.get? key).isNone then some (ms.put key (.value d)) else none
  | _, p :: ps, key, ms =>
    match ms.get? p with
    | none => (assign d true ps key []).map fun sub => ms.put p (.table .dotted sub)
    | some (.table .header _) => none
    | some (.table o sub) =>
      (assign d (o == .dotted) ps key sub).map fun sub => ms.put p (.table o sub)
    | some (.tables earlier last) =>
      (assign d false ps key last).map fun last => ms.put p (.tables earlier last)
    | some (.value _) => none

def openTable (key : String) (ms : Members) : Option Members :=
  match ms.get? key with
  | none => some (ms.put key (.table .header []))
  | some (.table .implied sub) => some (ms.put key (.table .header sub))
  | some _ => none

def openNext (key : String) (ms : Members) : Option Members :=
  match ms.get? key with
  | none => some (ms.put key (.tables [] []))
  | some (.tables earlier last) => some (ms.put key (.tables (earlier ++ [last]) []))
  | some _ => none

mutual

def Node.toDatum : Node → Datum
  | .value d => d
  | .table _ ms => .record (membersToData ms)
  | .tables earlier last => .list (tablesToData earlier ++ [.record (membersToData last)])

def membersToData : List (String × Node) → List (String × Datum)
  | [] => []
  | (k, n) :: ms => (k, n.toDatum) :: membersToData ms

def tablesToData : List (List (String × Node)) → List Datum
  | [] => []
  | t :: ts => .record (membersToData t) :: tablesToData ts

end

end MailMarkup.Toml
