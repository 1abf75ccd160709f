import MailMarkup.Compatibility
import MailMarkup.Error
import MailMarkup.Repair.History
import MailMarkup.Repair.Sequence
import MailMarkup.Report

/-!
# Validation engines

An engine holds the rules in force, the settings, and what it remembers between documents: trees,
compiled patterns, a record of repairs, and counters. Every operation is a function from an engine
to a result and an engine; where it calls rules, they act as a conduct says. Once disposed of, an
engine only says so.
-/
namespace MailMarkup

structure Counters where
  validations : Nat := 0
  rejectedInputs : Nat := 0
  ruleFailures : Nat := 0
  deriving DecidableEq, Repr, Inhabited

structure Engine where
  registry : Registry
  settings : Settings
  trees : Cache Text Forest
  workshop : Workshop
  ledger : Repair.Ledger
  counters : Counters := {}
  disposed : Bool := false

structure EngineStats where
  validations : Nat
  rejectedInputs : Nat
  ruleFailures : Nat
  repairRuns : Nat
  fixesApplied : Nat
  repairsRejected : Nat
  trees : CacheStats
  patterns : CacheStats
  historySize : Nat
  deriving DecidableEq, Repr, Inhabited

structure RuleView where
  info : RuleInfo
  custom : Bool
  deriving DecidableEq, Repr, Inhabited

namespace Engine

abbrev Result (α : Type) := Except EngineError α

def build (s : Settings) : Engine where
  registry := .standard
  settings := s
  trees := .new s.cache.treePolicy 0
  workshop := .new s.cache.patternPolicy
  ledger := .new (s.cache.historyPolicy s.repair.historyCapacity) 0

/-- An engine with the built-in rules, if the settings are sound. -/
def new (s : Settings) : Result Engine :=
  match s.fault? with
  | some m => .error (.settings (.invalid m))
  | none => .ok (build s)

def whenActive {α : Type} (e : Engine) (f : Unit → Result α × Engine) : Result α × Engine :=
  if e.disposed then (.error .disposed, e) else f ()

def inputFinding (category : Category) (message suggestion : String) : Finding :=
  (Finding.of { name := "input", displayName := "Input", severity := .error, category }
    message).suggest suggestion

/-- The finding for a document that is not looked at: blank or too large. -/
def rejection? (s : Settings) (html : Text) : Option Finding :=
  if (Text.trim html).isEmpty then
    some (inputFinding .structural "HTML content is empty" "Provide the HTML of the email body")
  else
    let size := Text.byteSize html
    if s.maxHtmlSize < size then
      some (inputFinding .performance
        ("HTML is " ++ toString size ++ " bytes, larger than the " ++ toString s.maxHtmlSize ++
          " byte limit")
        "Reduce the size of the email")
    else none

def treeOf (e : Engine) (html : Text) : Forest × Engine :=
  match e.trees.get e.workshop.clock html with
  | (some forest, trees) => (forest, { e with trees, workshop := e.workshop.advance })
  | (none, trees) =>
    let forest := (Document.read e.settings.limits html).nodes
    let w := e.workshop.advance
    (forest, { e with trees := trees.insert w.clock html forest, workshop := w.advance })

def failureFinding (info : RuleInfo) (f : Failure) : Finding :=
  { Finding.of info ("Rule '" ++ info.name ++ "' failed: " ++ f.message) with
    severity := .error, fixable := false }

/-- The findings of a rule with the severity that is set for it. -/
def settle (s : Settings) (info : RuleInfo) : Except Failure (List Finding) → List Finding
  | .ok found =>
    match (s.rule? info.name).bind (·.severity) with
    | some severity => found.map fun f => { f with severity }
    | none => found
  | .error f => [failureFinding info f]

/-- A validation under way: the findings, last first, the failures, the index and the workshop. -/
structure Survey where
  found : List (List Finding) := []
  failures : Nat := 0
  index : Index
  workshop : Workshop

def Survey.apply (subject : Subject) (forest : Forest) (v : Survey) (r : Rule) : Survey :=
  if subject.settings.enables r.info then
    let (result, index, workshop) := match r.treeCheck with
      | some check => (check subject forest r.info).run v.index v.workshop
      | none =>
        let (result, w) := (r.check subject r.info).runAlone v.workshop
        (result, v.index, w)
    { found := settle subject.settings r.info result :: v.found
      failures := v.failures + match result with
        | .ok _ => 0
        | .error _ => 1
      index, workshop }
  else v

def validate (e : Engine) (html : Text) (c : Conduct := .steady) : Result Report × Engine :=
  e.whenActive fun _ =>
    let e := { e with counters := { e.counters with validations := e.counters.validations + 1 } }
    match rejection? e.settings html with
    | some f =>
      (.ok (.rejected f),
        { e with
          counters := { e.counters with rejectedInputs := e.counters.rejectedInputs + 1 } })
    | none =>
      let (forest, e) := e.treeOf html
      let v := (c.acting e.registry.rules).foldl (Survey.apply ⟨html, e.settings⟩ forest)
        { index := .new forest e.settings.cache.maxResults, workshop := e.workshop }
      (.ok (.ofFindings v.found.reverse.flatten e.settings.scoring e.settings.strict),
        { e with
          workshop := v.workshop
          counters :=
            { e.counters with ruleFailures := e.counters.ruleFailures + v.failures } })

def repairWith (e : Engine) (html : Text) (include_ : Rule → Bool) (c : Conduct := .steady) :
    Result Repair.Outcome × Engine :=
  e.whenActive fun _ =>
    let rules := Repair.sequence e.registry e.settings include_
    let (outcome, ledger, workshop) := e.ledger.repair e.settings rules html e.workshop c
    (.ok outcome, { e with ledger, workshop })

def repair (e : Engine) (html : Text) (c : Conduct := .steady) : Result Repair.Outcome × Engine :=
  e.repairWith html (fun _ => true) c

/-- Repairs with the named rules only. Names of no use change nothing. -/
def repairOnly (e : Engine) (html : Text) (names : List String) (c : Conduct := .steady) :
    Result Repair.Outcome × Engine :=
  e.repairWith html (fun r => names.contains r.name) c

/-- Repairs with the rules that are at least so severe under the settings. -/
def repairAtLeast (e : Engine) (html : Text) (severity : Severity) (c : Conduct := .steady) :
    Result Repair.Outcome × Engine :=
  e.repairWith html (fun r => (e.settings.severityOf r.info).atLeast severity) c

def repairCategory (e : Engine) (html : Text) (category : Category) (c : Conduct := .steady) :
    Result Repair.Outcome × Engine :=
  e.repairWith html (fun r => r.info.category == category) c

def addRule (e : Engine) (r : Rule) : Result Unit × Engine :=
  e.whenActive fun _ => (.ok (), { e with registry := e.registry.addCustom r })

def removeRule (e : Engine) (name : String) : Result Bool × Engine :=
  e.whenActive fun _ =>
    let (found, registry) := e.registry.remove name
    (.ok found, { e with registry })

def setRule (e : Engine) (name : String) (f : RuleSetting → RuleSetting) : Result Unit × Engine :=
  e.whenActive fun _ =>
    if e.registry.contains name then
      (.ok (), { e with settings := { e.settings with rules := e.settings.rules.modify name f } })
    else (.error (.unknownRule name), e)

def setRuleEnabled (e : Engine) (name : String) (enabled : Bool) : Result Unit × Engine :=
  e.setRule name fun s => { s with enabled := some enabled }

def setRuleSeverity (e : Engine) (name : String) (severity : Severity) : Result Unit × Engine :=
  e.setRule name fun s => { s with severity := some severity }

def view (e : Engine) (r : Rule) : RuleView where
  info :=
    { r.info with severity := e.settings.severityOf r.info, enabled := e.settings.enables r.info }
  custom := e.registry.isCustom r.name

def rulesWhere (e : Engine) (p : Rule → Bool) : Result (List RuleView) × Engine :=
  e.whenActive fun _ => (.ok ((e.registry.rules.filter p).map e.view), e)

def availableRules (e : Engine) : Result (List RuleView) × Engine := e.rulesWhere fun _ => true

def rulesIn (e : Engine) (category : Category) : Result (List RuleView) × Engine :=
  e.rulesWhere (·.info.category == category)

def fixableRules (e : Engine) : Result (List RuleView) × Engine := e.rulesWhere (·.info.fixable)

def compatibility (e : Engine) (html : Text) : Result CompatibilityReport × Engine :=
  e.whenActive fun _ =>
    match (Compatibility.report ⟨html, e.settings⟩).runAlone e.workshop with
    | (.ok report, workshop) => (.ok report, { e with workshop })
    | (.error f, workshop) => (.error (.rule f), { e with workshop })

def currentSettings (e : Engine) : Result Settings × Engine :=
  e.whenActive fun _ => (.ok e.settings, e)

/-- Changes settings, if the outcome is sound. Trees read under other limits are forgotten, and the
caches follow their settings. -/
def update (e : Engine) (p : Patch) : Result Unit × Engine :=
  e.whenActive fun _ =>
    let new := e.settings.patched p
    match new.fault? with
    | some m => (.error (.settings (.invalid m)), e)
    | none =>
      let now := e.workshop.clock
      let trees := if new.limits = e.settings.limits then e.trees else e.trees.clear
      let same := new.cache == e.settings.cache
      let trees := if same then trees else trees.setPolicy now new.cache.treePolicy
      let patterns :=
        if same then e.workshop.patterns
        else e.workshop.patterns.setPolicy now new.cache.patternPolicy
      let history := e.ledger.history.setPolicy now
        (new.cache.historyPolicy new.repair.historyCapacity)
      (.ok (), { e with
        settings := new, trees
        workshop := { patterns, clock := now + Workshop.tick }
        ledger := { e.ledger with history } })

def stats (e : Engine) : Result EngineStats × Engine :=
  e.whenActive fun _ =>
    (.ok {
      validations := e.counters.validations
      rejectedInputs := e.counters.rejectedInputs
      ruleFailures := e.counters.ruleFailures
      repairRuns := e.ledger.runs
      fixesApplied := e.ledger.fixesApplied
      repairsRejected := e.ledger.rejected
      trees := e.trees.stats
      patterns := e.workshop.patterns.stats
      historySize := e.ledger.history.size }, e)

/-- Sets the counters to zero; what is remembered is kept. -/
def resetStats (e : Engine) : Result Unit × Engine :=
  e.whenActive fun _ =>
    (.ok (), { e with
      counters := {}, ledger := e.ledger.resetStats, trees := e.trees.resetStats
      workshop := { e.workshop with patterns := e.workshop.patterns.resetStats } })

def history (e : Engine) : Result (List Repair.Record) × Engine :=
  e.whenActive fun _ => (.ok e.ledger.records, e)

/-- Starts the sweeping of caches in the background, which takes a scheduler to run it. -/
def startMaintenance (e : Engine) (scheduler : Bool) : Result Bool × Engine :=
  e.whenActive fun _ => (.ok scheduler, e)

def dispose (e : Engine) : Engine :=
  if e.disposed then e
  else
    { e with
      registry := {}, trees := e.trees.clear, disposed := true
      workshop := { e.workshop with patterns := e.workshop.patterns.clear }
      ledger := { e.ledger with history := e.ledger.history.clear } }

end Engine
end MailMarkup
