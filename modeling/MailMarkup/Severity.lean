import MailMarkup.Text.Basic

/-!
# Severities and categories of findings
-/
namespace MailMarkup

inductive Severity where
  | error | warning | info
  deriving DecidableEq, Repr, Inhabited

namespace Severity

def all : List Severity := [.error, .warning, .info]

def name : Severity → String
  | .error => "error"
  | .warning => "warning"
  | .info => "info"

def rank : Severity → Nat
  | .error => 3
  | .warning => 2
  | .info => 1

/-- An error is at least a warning, and that at least an info. -/
def atLeast (s threshold : Severity) : Bool := threshold.rank ≤ s.rank

def parse (t : Text) : Except String Severity :=
  let s := String.ofList (Text.lower (Text.trim t))
  if s = "error" then .ok .error
  else if s = "warning" || s = "warn" then .ok .warning
  else if s = "info" || s = "suggestion" then .ok .info
  else .error ("unknown severity '" ++ s ++ "'")

end Severity

inductive Category where
  | structural | accessibility | compatibility | performance | bestPractice
  deriving DecidableEq, Repr, Inhabited

namespace Category

def all : List Category :=
  [.structural, .accessibility, .compatibility, .performance, .bestPractice]

def name : Category → String
  | .structural => "structure"
  | .accessibility => "accessibility"
  | .compatibility => "compatibility"
  | .performance => "performance"
  | .bestPractice => "best-practice"

def parse (t : Text) : Except String Category :=
  let s := String.ofList (Text.replaceChar '_' ['-'] (Text.lower (Text.trim t)))
  if s = "structure" then .ok .structural
  else if s = "accessibility" then .ok .accessibility
  else if s = "compatibility" then .ok .compatibility
  else if s = "performance" then .ok .performance
  else if s = "best-practice" || s = "best-practices" || s = "bestpractice" then .ok .bestPractice
  else .error ("unknown category '" ++ s ++ "'")

end Category
end MailMarkup
