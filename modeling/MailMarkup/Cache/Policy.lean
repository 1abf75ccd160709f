import MailMarkup.Decimal.Binary
import MailMarkup.Duration
import MailMarkup.Settings.Basic

/-!
# Eviction policies

When a cache is full, which entries are worth keeping, and when entries grow too old. Times are in
nanoseconds.
-/
namespace MailMarkup

abbrev Time := Nat

def second : Time := Duration.perSecond

structure Policy where
  capacity : Nat := 10
  /-- Share of the capacity at which a batch is evicted. -/
  threshold : Float := 0.9
  /-- Share of the capacity evicted at once. -/
  evictFraction : Float := 0.25
  accessWeight : Float := 1.0
  ageWeight : Float := 0.01
  /-- After this an entry has expired. -/
  ttl : Option Duration := none
  /-- A sweep drops entries that score less and were idle for a whole interval. -/
  minScore : Option Float := none
  sweepInterval : Duration := 60
  deriving Inhabited

/-- A stored value with when it was stored, when it was last asked for, and how often. -/
structure Entry (V : Type) where
  value : V
  created : Time
  lastAccess : Time
  accesses : Nat := 0

namespace Policy

/-- The size that is never reached, from two entries on: between 1 and the capacity. -/
def highWaterMark (p : Policy) : Nat :=
  let capacity := Nat.max p.capacity 1
  Nat.min (Nat.max (Float.ofNat capacity * p.threshold).ceil.toUInt64.toNat 1) capacity

/-- How many entries are evicted at once, at least one. -/
def batchSize (p : Policy) : Nat :=
  Nat.max (Float.ofNat p.capacity * p.evictFraction).ceil.toUInt64.toNat 1

def isExpired {V : Type} (p : Policy) (now : Time) (e : Entry V) : Bool :=
  match p.ttl with
  | some ttl => ttl.nanoseconds ≤ now - e.created
  | none => false

/-- Entries that are asked for often and were stored lately score highest. -/
def score {V : Type} (p : Policy) (now : Time) (e : Entry V) : Float :=
  Float.ofNat e.accesses * p.accessWeight - Duration.seconds ⟨now - e.created⟩ * p.ageWeight

def isIdle {V : Type} (p : Policy) (now : Time) (e : Entry V) : Bool :=
  p.sweepInterval.nanoseconds ≤ now - e.lastAccess

def isLowValue {V : Type} (p : Policy) (now : Time) (e : Entry V) : Bool :=
  match p.minScore with
  | some floor => p.isIdle now e && p.score now e < floor
  | none => false

def sweeps (p : Policy) : Bool := p.ttl.isSome || p.minScore.isSome

end Policy

namespace CacheSettings

def policy (c : CacheSettings) (capacity : Nat) : Policy where
  capacity := capacity
  threshold := c.threshold
  evictFraction := c.evictFraction
  accessWeight := c.accessWeight
  ageWeight := c.ageWeight
  sweepInterval := .ofSeconds c.sweepInterval

/-- For trees; a lifetime of no seconds means that they do not expire. -/
def treePolicy (c : CacheSettings) : Policy :=
  { c.policy c.treeCapacity with
    ttl := if 0 < c.treeTtl then some (.ofSeconds c.treeTtl) else none
    minScore := some c.minScore }

def patternPolicy (c : CacheSettings) : Policy :=
  { c.policy c.patternCapacity with minScore := some c.minScore }

def historyPolicy (c : CacheSettings) (capacity : Nat) : Policy := c.policy capacity

end CacheSettings
end MailMarkup
