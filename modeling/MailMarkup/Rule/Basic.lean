import MailMarkup.Document.Reader
import MailMarkup.Finding
import MailMarkup.Rule.Task
import MailMarkup.Settings.Basic

/-!
# Rules

A rule checks the text of a document or its tree, and may know how to repair what it reports. One
that keeps something between its calls may act differently at each of them.
-/
namespace MailMarkup

/-- What a rule is given: the document and the settings. -/
structure Subject where
  html : Text
  settings : Settings

abbrev TextCheck := Subject → RuleInfo → Task (List Finding)

abbrev TreeCheck := Subject → Forest → RuleInfo → Task (List Finding)

abbrev Fix := Subject → Task Text

/-- A rule, as it acts at one call. -/
structure Rule where
  info : RuleInfo
  check : TextCheck
  treeCheck : Option TreeCheck := none
  fix : Option Fix := none

namespace Rule

def name (r : Rule) : String := r.info.name

def onText (info : RuleInfo) (check : TextCheck) : Rule := { info, check }

/-- A rule on the tree. Asked about a text alone, it reads the tree itself. -/
def onTree (info : RuleInfo) (check : TreeCheck) : Rule where
  info := info
  check s info :=
    let forest := (Document.read s.settings.limits s.html).nodes
    (check s forest info).answered (.new forest s.settings.cache.maxResults)
  treeCheck := some check

def withFix (r : Rule) (fix : Fix) : Rule :=
  { r with info := { r.info with fixable := true }, fix := some fix }

/-- The repaired text; a rule without a repair leaves it as it is. -/
def repaired (r : Rule) (s : Subject) : Task Text :=
  match r.fix with
  | some fix => fix s
  | none => .done s.html

end Rule

/-- How rules act in the course of an operation: `act n r` is the rule `r` at call number `n`. It
may check and repair as it likes, but is described as ever. -/
structure Conduct where
  act : Nat → Rule → Rule
  info : ∀ n r, (act n r).info = r.info

namespace Conduct

/-- Every rule acts alike at each call. -/
def steady : Conduct := ⟨fun _ r => r, fun _ _ => rfl⟩

/-- The rules as they act when they are called one after the other. -/
def acting (c : Conduct) (rules : List Rule) : List Rule := rules.mapIdx c.act

@[simp] theorem acting_steady (rules : List Rule) : steady.acting rules = rules := by
  induction rules with
  | nil => rfl
  | cons r rules ih => rw [acting, List.mapIdx_cons]; exact congrArg _ ih

end Conduct

namespace Settings

def rule? (s : Settings) (name : String) : Option RuleSetting := s.rules.get? name

/-- Whether a rule runs: its own setting or else its default, if its category is checked. -/
def enables (s : Settings) (r : RuleInfo) : Bool :=
  ((s.rule? r.name).bind (·.enabled)).getD r.enabled && s.checks r.category

def severityOf (s : Settings) (r : RuleInfo) : Severity :=
  ((s.rule? r.name).bind (·.severity)).getD r.severity

end Settings
end MailMarkup
