import MailMarkup.Client
import MailMarkup.Decimal.Shortest
import MailMarkup.Document.Limits
import MailMarkup.Scoring
import MailMarkup.Severity

/-!
# Settings of a validation engine
-/
namespace MailMarkup

/-- What is set for one rule; what is not set stays as the rule has it. -/
structure RuleSetting where
  enabled : Option Bool := none
  severity : Option Severity := none
  deriving DecidableEq, Repr, Inhabited

/-- Settings by rule name, each name once. -/
abbrev RuleTable := List (String × RuleSetting)

namespace RuleTable

def get? (t : RuleTable) (name : String) : Option RuleSetting := t.lookup name

/-- Sets a rule's entry: in place if there is one, else at the end. -/
def put (t : RuleTable) (name : String) (s : RuleSetting) : RuleTable :=
  if t.any (·.1 == name) then t.map fun e => if e.1 == name then (name, s) else e
  else t ++ [(name, s)]

def putAll (t : RuleTable) (more : RuleTable) : RuleTable :=
  more.foldl (fun t e => t.put e.1 e.2) t

def modify (t : RuleTable) (name : String) (f : RuleSetting → RuleSetting) : RuleTable :=
  t.put name (f ((t.get? name).getD {}))

end RuleTable

structure RepairSettings where
  maxPasses : Nat := 5
  growthLimit : Float := 3.0
  growthAllowance : Nat := 4096
  historyCapacity : Nat := 200
  deriving Inhabited

/-- Sizes of the caches and how their entries are valued. -/
structure CacheSettings where
  treeCapacity : Nat := 100
  treeTtl : Nat := 300
  patternCapacity : Nat := 500
  threshold : Float := 0.9
  evictFraction : Float := 0.25
  accessWeight : Float := 1.0
  ageWeight : Float := 0.01
  sweepInterval : Nat := 60
  minScore : Float := 0.0
  maxResults : Nat := 1000
  deriving BEq, Inhabited

structure Thresholds where
  maxTableDepth : Nat := 4
  maxWidth : Nat := 600
  clipBytes : Nat := 102400
  minFontSize : Nat := 13
  deriving DecidableEq, Repr, Inhabited

structure Settings where
  rules : RuleTable := []
  clients : Clients := {}
  strict : Bool := false
  maxHtmlSize : Nat := 524288
  maxFileSize : Nat := 5242880
  accessibility : Bool := true
  performance : Bool := true
  bestPractices : Bool := true
  scoring : Scoring Float := .standard
  limits : Limits := {}
  repair : RepairSettings := {}
  cache : CacheSettings := {}
  thresholds : Thresholds := {}
  deriving Inhabited

/-- A change of some settings. Rule entries are added to those there are. -/
structure Patch where
  rules : Option RuleTable := none
  clients : Option Clients := none
  strict : Option Bool := none
  maxHtmlSize : Option Nat := none
  maxFileSize : Option Nat := none
  accessibility : Option Bool := none
  performance : Option Bool := none
  bestPractices : Option Bool := none
  scoring : Option (Scoring Float) := none
  limits : Option Limits := none
  repair : Option RepairSettings := none
  cache : Option CacheSettings := none
  thresholds : Option Thresholds := none
  deriving Inhabited

namespace Settings

/-- Structure and compatibility are always checked. -/
def checks (s : Settings) : Category → Bool
  | .accessibility => s.accessibility
  | .performance => s.performance
  | .bestPractice => s.bestPractices
  | .structural => true
  | .compatibility => true

def patched (s : Settings) (p : Patch) : Settings where
  rules := (p.rules.map s.rules.putAll).getD s.rules
  clients := p.clients.getD s.clients
  strict := p.strict.getD s.strict
  maxHtmlSize := p.maxHtmlSize.getD s.maxHtmlSize
  maxFileSize := p.maxFileSize.getD s.maxFileSize
  accessibility := p.accessibility.getD s.accessibility
  performance := p.performance.getD s.performance
  bestPractices := p.bestPractices.getD s.bestPractices
  scoring := p.scoring.getD s.scoring
  limits := p.limits.getD s.limits
  repair := p.repair.getD s.repair
  cache := p.cache.getD s.cache
  thresholds := p.thresholds.getD s.thresholds

/-- The complaint about a value outside `(0, 1]`. -/
def fractionFault (name : String) (x : Float) : Option String :=
  if 0.0 < x && x ≤ 1.0 then none
  else some (name ++ " must be in (0, 1], got " ++ Decimal.plain x)

/-- The first thing that is wrong with settings, if anything is. -/
def fault? (s : Settings) : Option String :=
  if s.maxHtmlSize = 0 then some "max_html_size must be greater than 0"
  else if s.maxFileSize = 0 then some "max_file_size must be greater than 0"
  else if !s.scoring.isOrdered then
    some "Scoring penalties must satisfy error > warning > info >= 0"
  else if !s.scoring.hasCeiling then some "scoring.max_penalty must be greater than 0"
  else if s.repair.maxPasses < 1 || 50 < s.repair.maxPasses then
    some "autofix.max_passes must be between 1 and 50"
  else if s.repair.growthLimit ≤ 1.0 then some "autofix.growth_limit must be greater than 1"
  else if s.repair.historyCapacity = 0 then
    some "autofix.history_capacity must be greater than 0"
  else if s.cache.treeCapacity = 0 || s.cache.patternCapacity = 0 then
    some "Cache capacities must be greater than 0"
  else if s.cache.maxResults = 0 then
    some "cache.traversal_max_results must be greater than 0"
  else
    (fractionFault "cache.eviction_threshold" s.cache.threshold).or <|
    (fractionFault "cache.evict_fraction" s.cache.evictFraction).or <|
    if !s.cache.minScore.isFinite then some "cache.min_entry_score must be a finite number"
    else if s.limits.maxIterations = 0 || s.limits.maxAttributeIterations = 0 then
      some "Parser iteration limits must be greater than 0"
    else none

end Settings
end MailMarkup
