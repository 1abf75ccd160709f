import MailMarkup.Cache.Policy

/-!
# Bounded caches

A cache is a list of entries in the order in which their keys came in. An entry that has expired
counts as missing. Before a new key would reach the high water mark, the entries of lowest score are
evicted in a batch. An operation may read the clock more than once, and a batch takes entries of one
score in whatever order they are listed; it is given both as the moment in which it is carried out.
-/
namespace MailMarkup

structure CacheStats where
  entries : Nat := 0
  capacity : Nat := 0
  hits : Nat := 0
  misses : Nat := 0
  evictions : Nat := 0
  expirations : Nat := 0
  deriving DecidableEq, Repr, Inhabited

def CacheStats.hitRate (s : CacheStats) : Float :=
  if s.hits + s.misses = 0 then 0.0 else Float.ofNat s.hits / Float.ofNat (s.hits + s.misses)

structure Cache (K V : Type) where
  policy : Policy
  entries : List (K × Entry V) := []
  lastSweep : Time
  hits : Nat := 0
  misses : Nat := 0
  evictions : Nat := 0
  expirations : Nat := 0

namespace Cache

/-- An order in which entries are listed: any there is. -/
structure Listing (K V : Type) where
  list : List (K × Entry V) → List (K × Entry V)
  perm : ∀ entries, (list entries).Perm entries

/-- What one operation meets with: the time whenever it reads the clock, and the order in which the
entries are listed whenever it evicts a batch. -/
structure Moment (K V : Type) where
  time : Nat → Time
  listing : Nat → Listing K V

namespace Moment
variable {K V : Type}

/-- The clock stands still, and entries are listed as they are stored. -/
def at_ (now : Time) : Moment K V := ⟨fun _ => now, fun _ => ⟨id, .refl⟩⟩

instance : Coe Time (Moment K V) := ⟨at_⟩

/-- What is left of a moment after so many readings of the clock. -/
def later (m : Moment K V) (n : Nat) : Moment K V := ⟨fun k => m.time (n + k), m.listing⟩

/-- What is left of a moment after a batch. -/
def next (m : Moment K V) : Moment K V :=
  ⟨fun k => m.time (k + 1), fun k => m.listing (k + 1)⟩

end Moment

variable {K V : Type} [DecidableEq K]

def new (policy : Policy) (now : Time) : Cache K V := { policy, lastSweep := now }

def size (c : Cache K V) : Nat := c.entries.length

def entry? (c : Cache K V) (key : K) : Option (Entry V) := c.entries.lookup key

def values (c : Cache K V) : List V := c.entries.map (·.2.value)

def stats (c : Cache K V) : CacheStats :=
  ⟨c.size, c.policy.capacity, c.hits, c.misses, c.evictions, c.expirations⟩

def resetStats (c : Cache K V) : Cache K V :=
  { c with hits := 0, misses := 0, evictions := 0, expirations := 0 }

def clear (c : Cache K V) : Cache K V := { c with entries := [] }

def erase (c : Cache K V) (key : K) : Cache K V :=
  { c with entries := c.entries.filter (·.1 ≠ key) }

/-- Stores an entry: in place if the key is there, else at the end. -/
def put (c : Cache K V) (key : K) (e : Entry V) : Cache K V :=
  if (c.entry? key).isSome then
    { c with entries := c.entries.map fun x => if x.1 = key then (key, e) else x }
  else { c with entries := c.entries ++ [(key, e)] }

/-- The keys of a batch, lowest score first, and of one score as they are listed. -/
def victims (c : Cache K V) (now : Time) (order : Listing K V) : List K :=
  let scored := (order.list c.entries).map fun x => (orderKey (c.policy.score now x.2), x.1)
  ((scored.mergeSort fun a b => a.1 ≤ b.1).take c.policy.batchSize).map Prod.snd

def evict (c : Cache K V) (now : Time) (order : Listing K V) : Cache K V :=
  let gone := c.victims now order
  { c with
    entries := c.entries.filter fun x => !gone.contains x.1,
    evictions := c.evictions + gone.length }

/-- Drops expired entries, and idle ones below the least score. -/
def sweep (c : Cache K V) (now : Time) : Cache K V :=
  let expired := c.entries.filter fun x => c.policy.isExpired now x.2
  let live := c.entries.filter fun x => !c.policy.isExpired now x.2
  let kept := live.filter fun x => !c.policy.isLowValue now x.2
  { c with
    entries := kept, lastSweep := now,
    expirations := c.expirations + expired.length,
    evictions := c.evictions + (live.length - kept.length) }

/-- Sweeps if the policy calls for it and an interval has passed since the last time. -/
def sweepIfDue (c : Cache K V) (m : Moment K V) : Cache K V :=
  if c.policy.sweeps && c.policy.sweepInterval.nanoseconds ≤ m.time 0 - c.lastSweep then
    c.sweep (m.time 1)
  else c

def contains (c : Cache K V) (now : Time) (key : K) : Bool :=
  (c.entry? key).any fun e => !c.policy.isExpired now e

/-- What is stored under a key, counted as a hit or a miss. -/
def get (c : Cache K V) (m : Moment K V) (key : K) : Option V × Cache K V :=
  let c := c.sweepIfDue m
  let now := m.time 2
  match c.entry? key with
  | none => (none, { c with misses := c.misses + 1 })
  | some e =>
    if c.policy.isExpired now e then
      (none, { c.erase key with expirations := c.expirations + 1, misses := c.misses + 1 })
    else
      (some e.value,
        { c.put key { e with lastAccess := now, accesses := e.accesses + 1 } with
          hits := c.hits + 1 })

def insert (c : Cache K V) (m : Moment K V) (key : K) (value : V) : Cache K V :=
  let c := c.sweepIfDue m
  let c :=
    if (c.entry? key).isNone && c.policy.highWaterMark ≤ c.size + 1 then
      c.evict (m.time 2) (m.listing 0)
    else c
  c.put key { value, created := m.time 3, lastAccess := m.time 3 }

def upsert (c : Cache K V) (m : Moment K V) (key : K) (update : V → V) (fresh : V) : Cache K V :=
  let now := m.time 0
  match c.entry? key with
  | some e =>
    if c.policy.isExpired now e then c.insert (m.later 1) key fresh
    else
      c.put key
        { e with value := update e.value, lastAccess := now, accesses := e.accesses + 1 }
  | none => c.insert (m.later 1) key fresh

/-- What is stored under a key, or else what `create` makes, which is then stored. A failure stores
nothing. -/
def getOrInsert {ε : Type} (c : Cache K V) (m : Moment K V) (key : K)
    (create : Unit → Except ε V) : Except ε V × Cache K V :=
  match c.get m key with
  | (some v, c) => (.ok v, c)
  | (none, c) =>
    match create () with
    | .ok v => (.ok v, c.insert (m.later 3) key v)
    | .error e => (.error e, c)

def remove (c : Cache K V) (key : K) : Option V × Cache K V :=
  ((c.entry? key).map (·.value), c.erase key)

/-- Evicts batches until the size is below the high water mark, at most `n` of them. -/
def shrink (m : Moment K V) : Nat → Cache K V → Cache K V
  | 0, c => c
  | n + 1, c =>
    if c.policy.highWaterMark ≤ c.size && c.size != 0 then
      shrink m.next n (c.evict (m.time 0) (m.listing 0))
    else c

/-- Replaces the policy. Each batch is one entry at least, so the size bounds their number. -/
def setPolicy (c : Cache K V) (m : Moment K V) (policy : Policy) : Cache K V :=
  shrink m c.size { c with policy }

end Cache
end MailMarkup
