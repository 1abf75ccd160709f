import MailMarkup.Duration
import MailMarkup.Compatibility
import MailMarkup.Error
import MailMarkup.Files.Path
import MailMarkup.Report

/-!
# Results of checking many files
-/
namespace MailMarkup

inductive FileStatus where
  | valid
  | invalid (errors warnings : Nat)
  /-- The file could not be read or checked. -/
  | failed (message : String)
  deriving DecidableEq, Repr

namespace FileStatus

def isValid : FileStatus → Bool
  | .valid => true
  | _ => false

def isInvalid : FileStatus → Bool
  | .invalid _ _ => true
  | _ => false

def isFailed : FileStatus → Bool
  | .failed _ => true
  | _ => false

def ofReport (r : Report) : FileStatus :=
  if r.isValid then .valid else .invalid r.errors.length r.warnings.length

def toDatum : FileStatus → Datum
  | .valid => .record [("status", .text "valid")]
  | .invalid errors warnings => .record [
      ("status", .text "invalid"), ("errors", .ofNat errors), ("warnings", .ofNat warnings)]
  | .failed message => .record [("status", .text "error"), ("message", .text message)]

end FileStatus

structure FileResult where
  path : Path
  status : FileStatus
  /-- Missing for a file that could not be read. -/
  report : Option Report := none
  /-- The rules whose repairs changed the file. -/
  fixed : List String := []
  writtenTo : Option Path := none
  compatibility : Option CompatibilityReport := none
  duration : Duration := .zero
  deriving DecidableEq

namespace FileResult

def failed (p : Path) (e : EngineError) : FileResult :=
  { path := p, status := .failed e.message }

def toDatum (r : FileResult) : Datum := .record [
  ("path", .text r.path.display), ("status", r.status.toDatum),
  ("report", Datum.ofOption Report.toDatum r.report), ("fixed", .texts r.fixed),
  ("written_to", Datum.ofOption (fun p => .text p.display) r.writtenTo),
  ("compatibility", Datum.ofOption CompatibilityReport.toDatum r.compatibility),
  ("duration", r.duration.toDatum)]

end FileResult

structure BatchSummary where
  total : Nat
  valid : Nat
  invalid : Nat
  failed : Nat
  /-- Files that were repaired. -/
  fixed : Nat
  duration : Duration
  average : Duration
  /-- The mean score of the files that have a report. -/
  averageScore : Option Float
  results : List FileResult

namespace BatchSummary

def mean (scores : List Nat) : Option Float :=
  if scores.isEmpty then none
  else some (Float.ofNat (scores.foldl (· + ·) 0) / Float.ofNat scores.length)

def ofResults (rs : List FileResult) : BatchSummary :=
  let duration := Duration.sum (rs.map (·.duration))
  { total := rs.length
    valid := rs.countP (·.status.isValid)
    invalid := rs.countP (·.status.isInvalid)
    failed := rs.countP (·.status.isFailed)
    fixed := rs.countP (!·.fixed.isEmpty)
    duration
    average := duration.part rs.length
    averageScore := mean (rs.filterMap fun r => r.report.map (·.score))
    results := rs }

/-- At least one file, and every file valid. -/
def allValid (b : BatchSummary) : Bool := b.valid == b.total && 0 < b.total

def hasErrors (b : BatchSummary) : Bool := 0 < b.failed || 0 < b.invalid

/-- The share of valid files in percent; of no files, none are valid. -/
def successRate (b : BatchSummary) : Float :=
  if b.total = 0 then 0.0 else Float.ofNat b.valid / Float.ofNat b.total * 100.0

def toDatum (b : BatchSummary) : Datum := .record [
  ("total_files", .ofNat b.total), ("valid_files", .ofNat b.valid),
  ("invalid_files", .ofNat b.invalid), ("error_files", .ofNat b.failed),
  ("fixed_files", .ofNat b.fixed), ("total_duration", b.duration.toDatum),
  ("average_duration", b.average.toDatum),
  ("average_score", Datum.ofOption .real b.averageScore),
  ("file_results", .list (b.results.map FileResult.toDatum))]

end BatchSummary
end MailMarkup
