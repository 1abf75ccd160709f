import MailMarkup.Data.Datum
import MailMarkup.Decimal.Fixed

/-!
# Durations

A number that stands for a duration is one of seconds.
-/
namespace MailMarkup

structure Duration where
  nanoseconds : Nat
  deriving DecidableEq, Repr, Inhabited

namespace Duration

def perSecond : Nat := 1000000000

def ofSeconds (n : Nat) : Duration := ⟨n * perSecond⟩

def wholeSeconds (d : Duration) : Nat := d.nanoseconds / perSecond

instance (n : Nat) : OfNat Duration n := ⟨ofSeconds n⟩

instance : Coe Nat Duration := ⟨ofSeconds⟩

instance : CoeOut Duration Nat := ⟨wholeSeconds⟩

def zero : Duration := ⟨0⟩

def sum (ds : List Duration) : Duration := ⟨ds.foldl (fun n d => n + d.nanoseconds) 0⟩

/-- One of `n` equal parts, rounded down; nothing if there are no parts. -/
def part (d : Duration) (n : Nat) : Duration := ⟨d.nanoseconds / n⟩

def toDatum (d : Duration) : Datum := .record [
  ("secs", .ofNat d.wholeSeconds), ("nanos", .ofNat (d.nanoseconds % perSecond))]

def seconds (d : Duration) : Float :=
  Float.ofNat d.wholeSeconds + Float.ofNat (d.nanoseconds % perSecond) / Float.ofNat perSecond

/-- Milliseconds below a second, then seconds with two places, then minutes and seconds with one. -/
def text (d : Duration) : String :=
  let s := d.seconds
  if s < 1.0 then toString (d.nanoseconds / 1000000) ++ "ms"
  else if s < 60.0 then Decimal.fixed 2 s ++ "s"
  else
    -- the part beyond whole minutes is exact, since it has no more bits than the whole
    let past := s - Float.ofNat (s.toUInt64.toNat / 60 * 60)
    toString (s / 60.0).toUInt64.toNat ++ "m" ++ Decimal.fixed 1 past ++ "s"

end Duration
end MailMarkup
