import MailMarkup.Finding
import MailMarkup.Scoring

/-!
# Reports on one document
-/
namespace MailMarkup

structure Report where
  isValid : Bool
  errors : List Finding
  warnings : List Finding
  suggestions : List Finding
  /-- Findings of each category; every category is listed. -/
  counts : List (Category × Nat)
  fixable : Bool
  total : Nat
  score : Nat
  deriving DecidableEq, Repr, Inhabited

namespace Report

def countIn (fs : List Finding) (c : Category) : Nat := fs.countP (·.category == c)

def withSeverity (fs : List Finding) (s : Severity) : List Finding := fs.filter (·.severity == s)

/-- The report on findings. Warnings count against a document in strict mode only. -/
def ofFindings {α : Type} [Amount α] (fs : List Finding) (scoring : Scoring α) (strict : Bool) :
    Report :=
  let errors := withSeverity fs .error
  let warnings := withSeverity fs .warning
  let suggestions := withSeverity fs .info
  { isValid := errors.isEmpty && (!strict || warnings.isEmpty)
    errors, warnings, suggestions
    counts := Category.all.map fun c => (c, countIn fs c)
    fixable := fs.any (·.fixable)
    total := errors.length + warnings.length + suggestions.length
    score := scoring.score errors.length warnings.length suggestions.length }

/-- The report on a document that no rule looked at. -/
def rejected (f : Finding) : Report where
  isValid := false
  errors := [f]
  warnings := []
  suggestions := []
  counts := Category.all.map fun c => (c, if c = f.category then 1 else 0)
  fixable := false
  total := 1
  score := 0

def findings (r : Report) : List Finding := r.errors ++ r.warnings ++ r.suggestions

def toDatum (r : Report) : Datum := .record [
  ("is_valid", .flag r.isValid),
  ("errors", .list (r.errors.map Finding.toDatum)),
  ("warnings", .list (r.warnings.map Finding.toDatum)),
  ("suggestions", .list (r.suggestions.map Finding.toDatum)),
  ("category_counts", .record (r.counts.map fun (c, n) => (c.name, .ofNat n))),
  ("auto_fix_available", .flag r.fixable),
  ("total_issues", .ofNat r.total),
  ("score", .ofNat r.score)]

end Report
end MailMarkup
