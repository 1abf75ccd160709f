/-!
# Ceilings and counters of one reading
-/
namespace MailMarkup

/-- Ceilings on the work of one reading: rounds of all loops together, rounds over the attributes of
one tag, and elements inside one another. -/
structure Limits where
  maxIterations : Nat := 100000
  maxAttributeIterations : Nat := 256
  maxDepth : Nat := 512
  deriving DecidableEq, Repr, Inhabited

/-- The work one reading did and the ceilings it met. -/
structure ReadStats where
  iterations : Nat := 0
  forcedAdvances : Nat := 0
  attributeBailouts : Nat := 0
  depthLimitHits : Nat := 0
  iterationLimitHit : Bool := false
  deriving DecidableEq, Repr, Inhabited

/-- Counts one round, and says whether it may be made. Once the ceiling is met no more are
counted. -/
def ReadStats.tick (l : Limits) (s : ReadStats) : ReadStats × Bool :=
  if s.iterationLimitHit then (s, false)
  else if l.maxIterations < s.iterations + 1 then
    ({ s with iterations := s.iterations + 1, iterationLimitHit := true }, false)
  else ({ s with iterations := s.iterations + 1 }, true)

end MailMarkup
