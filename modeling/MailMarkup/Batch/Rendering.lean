import MailMarkup.Batch.Result
import MailMarkup.Configuration.Basic
import MailMarkup.Data.Json

/-!
# How results are shown

Errors are always shown, warnings unless the output is quiet, and suggestions only if it is verbose.
-/
namespace MailMarkup

structure Rendering where
  format : Format := .human
  verbosity : Verbosity := .normal
  colors : Bool := false
  /-- How a time is written. -/
  time : Duration → String := Duration.text

namespace Rendering

def green : String := "32"

def red : String := "31"

def yellow : String := "33"

def cyan : String := "36"

def paint (o : Rendering) (color text : String) : String :=
  if o.colors then "\x1b[" ++ color ++ "m" ++ text ++ "\x1b[0m" else text

def plural (n : Nat) : String := if n = 1 then "" else "s"

def shows (o : Rendering) : Severity → Bool
  | .error => true
  | .warning => o.verbosity != .quiet
  | .info => o.verbosity == .verbose

def label (o : Rendering) : Severity → String
  | .error => o.paint red "error"
  | .warning => o.paint yellow "warning"
  | .info => o.paint cyan "info"

def finding (o : Rendering) (f : Finding) : String :=
  let place := match f.line, f.column with
    | some line, some column => toString line ++ ":" ++ toString column ++ " "
    | _, _ => ""
  let advice := match o.verbosity, f.suggestion with
    | .verbose, some s => " (" ++ s ++ ")"
    | _, _ => ""
  place ++ o.label f.severity ++ " [" ++ f.rule ++ "] " ++ f.message ++ advice

def headline (o : Rendering) (r : FileResult) : String :=
  let score := match r.report with
    | some report => ", score " ++ toString report.score
    | none => ""
  let place := "  " ++ r.path.display ++ " (" ++ o.time r.duration
  match r.status with
  | .valid => o.paint green "✓ VALID" ++ place ++ score ++ ")"
  | .invalid errors warnings =>
    o.paint red "✗ INVALID" ++ place ++ score ++ ") - " ++
      toString errors ++ " error" ++ plural errors ++ ", " ++
      toString warnings ++ " warning" ++ plural warnings
  | .failed message => o.paint yellow "⚠ ERROR" ++ place ++ ") - " ++ message

def repairs (r : FileResult) : String :=
  if r.fixed.isEmpty then ""
  else
    "\n    fixed: " ++ String.intercalate ", " r.fixed ++
      match r.writtenTo with
      | some p => " -> " ++ p.display
      | none => ""

def findings (o : Rendering) (r : FileResult) : String :=
  match r.report with
  | some report =>
    String.join <| (report.findings.filter fun f => o.shows f.severity).map fun f =>
      "\n    " ++ o.finding f
  | none => ""

def clients (o : Rendering) (r : FileResult) : String :=
  match o.verbosity, r.compatibility with
  | .verbose, some report =>
    String.join <| report.map fun (client, c) =>
      "\n    " ++ client.displayName ++ ": " ++
        (if c.compatible then o.paint green "ok" else o.paint yellow "issues") ++
        String.join (c.issues.map ("\n      - " ++ ·))
  | _, _ => ""

def fileResult (o : Rendering) (r : FileResult) : String :=
  o.headline r ++ repairs r ++ o.findings r ++ o.clients r

def summary (o : Rendering) (b : BatchSummary) : String :=
  let line (shown : Bool) (label value : String) : String :=
    if shown then "  " ++ label ++ " " ++ value ++ "\n" else ""
  "Validation Summary:\n" ++
    line true "Total files:" (toString b.total) ++
    line true (o.paint green "Valid:") (toString b.valid) ++
    line (0 < b.invalid) (o.paint red "Invalid:") (toString b.invalid) ++
    line (0 < b.failed) (o.paint yellow "Errors:") (toString b.failed) ++
    line (0 < b.fixed) "Fixed:" (toString b.fixed) ++
    line b.averageScore.isSome "Average score:" (Decimal.fixed 1 (b.averageScore.getD 0.0)) ++
    line true "Success rate:" (Decimal.fixed 1 b.successRate ++ "%") ++
    line true "Duration:" (o.time b.duration) ++
    line (o.verbosity == .verbose) "Average per file:" (o.time b.average)

/-- One entry for each file, and the totals. Quiet output leaves out files that are valid. -/
def human (o : Rendering) (b : BatchSummary) : String :=
  let shown := b.results.filter fun r => o.verbosity != .quiet || !r.status.isValid
  let entries := String.join (shown.map fun r => o.fileResult r ++ "\n")
  match o.verbosity with
  | .quiet =>
    entries ++
      if b.hasErrors then
        "Errors: " ++ toString b.failed ++ " Invalid: " ++ toString b.invalid ++ "\n"
      else ""
  | _ => entries ++ (if b.results.isEmpty then "" else "\n") ++ o.summary b

def render (o : Rendering) (b : BatchSummary) : String :=
  match o.format with
  | .json => Json.pretty 0 b.toDatum
  | .summary => o.summary b
  | .human => o.human b

end Rendering
end MailMarkup
