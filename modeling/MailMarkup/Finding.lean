import MailMarkup.Data.Datum
import MailMarkup.Severity
import MailMarkup.Text.Cursor

/-!
# Findings
-/
namespace MailMarkup

/-- What a rule is called, what it is about, and what it does unless settings say otherwise. -/
structure RuleInfo where
  name : String
  displayName : String
  description : String := ""
  severity : Severity
  category : Category
  enabled : Bool := true
  fixable : Bool := false
  deriving DecidableEq, Repr, Inhabited

structure Finding where
  rule : String
  severity : Severity
  message : String
  category : Category
  line : Option Nat := none
  column : Option Nat := none
  suggestion : Option String := none
  fixable : Bool
  deriving DecidableEq, Repr, Inhabited

namespace Finding

def of (rule : RuleInfo) (message : String) : Finding :=
  { rule := rule.name, severity := rule.severity, message, category := rule.category,
    fixable := rule.fixable }

def at_ (f : Finding) (p : Position) : Finding :=
  { f with line := some p.line, column := some p.column }

def suggest (f : Finding) (s : String) : Finding := { f with suggestion := some s }

/-- Members that have nothing to say are left out. -/
def toDatum (f : Finding) : Datum :=
  let member (name : String) {α : Type} (v : Option α) (d : α → Datum) : List (String × Datum) :=
    match v with
    | some a => [(name, d a)]
    | none => []
  .record <|
    [("rule", .text f.rule), ("severity", .text f.severity.name), ("message", .text f.message),
      ("category", .text f.category.name)] ++
    member "line" f.line .ofNat ++ member "column" f.column .ofNat ++
    member "suggestion" f.suggestion .text ++
    [("auto_fix_available", .flag f.fixable)]

end Finding
end MailMarkup
