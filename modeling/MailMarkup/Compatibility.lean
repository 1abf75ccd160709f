import MailMarkup.Decimal.Read
import MailMarkup.Decimal.Shortest
import MailMarkup.Rule.Basic

/-!
# What each client will do to a message

Every targeted client gets a list of caveats. It is compatible if the list is empty.
-/
namespace MailMarkup

structure ClientReport where
  issues : List String
  deriving DecidableEq, Repr, Inhabited

def ClientReport.compatible (r : ClientReport) : Bool := r.issues.isEmpty

abbrev CompatibilityReport := List (Client × ClientReport)

namespace Compatibility
open Text

/-- A pattern with the caveat it stands for. -/
abbrev Probe := String × String

def outlookProbes : List Probe := [
  ("display\\s*:\\s*(?:inline-)?flex\\b", "Flexbox layout is not supported"),
  ("display\\s*:\\s*(?:inline-)?grid\\b", "CSS grid layout is not supported"),
  ("position\\s*:\\s*(?:absolute|fixed)\\b", "Absolute and fixed positioning are ignored"),
  ("(?:linear|radial)-gradient\\s*\\(", "CSS gradients are not rendered"),
  ("background-image\\s*:", "CSS background images are not shown"),
  ("border-radius\\s*:", "Rounded corners are rendered square")]

def gmailProbes : List Probe := [
  ("<style\\b", "Embedded <style> blocks are removed in some Gmail apps"),
  ("background-image\\s*:|url\\s*\\(", "Background images and url() references may be stripped"),
  ("<link\\b[^>]*\\brel\\s*=\\s*[\"']?stylesheet", "Linked stylesheets are not loaded"),
  ("@import\\b", "@import rules are not loaded"),
  ("@media\\b", "Media queries are unsupported for non-Google accounts")]

def appleMailProbes : List Probe := [
  ("<script\\b", "Scripts are never executed"),
  ("<form\\b", "Forms are disabled")]

def thunderbirdProbes : List Probe := [
  ("position\\s*:\\s*fixed\\b", "Fixed positioning escapes the message pane"),
  ("<script\\b", "Scripts are blocked")]

def occurs (html : Text) (source : String) : Task Bool := do
  let p ← .ask source
  return p.isIn html

def probe (html : Text) : List Probe → Task (List String)
  | [] => .done []
  | (source, issue) :: more => do
    let found ← occurs html source
    let rest ← probe html more
    return if found then issue :: rest else rest

def maxWidth : String := "max-width\\s*:"

def outlook (html : Text) : Task (List String) := do
  let issues ← probe html outlookProbes
  if ← occurs html maxWidth then
    if ← occurs html "<!--\\[if\\s+(?:gte\\s+)?mso" then return issues
    else return issues ++ ["max-width is ignored without an MSO conditional fallback"]
  else return issues

def gmail (html : Text) (t : Thresholds) : Task (List String) := do
  let issues ← probe html gmailProbes
  let size := byteSize html
  if t.clipBytes < size then
    return issues ++ ["Message is clipped: " ++ toString size ++ " bytes exceeds " ++
      toString t.clipBytes ++ " bytes"]
  else return issues

def anyWidth : String := "(?:^|[^-\\w])width\\s*(?::\\s*(\\d+)px|=\\s*[\"']?(\\d+))"

def tableWidth : String :=
  "<table\\b[^>]*\\swidth\\s*=\\s*[\"']?\\d+(?:px)?[\"']?[\\s/>]"

def widthIssues (html : Text) (limit : Nat) : Task (List String) := do
  let p ← .ask anyWidth
  let widths := (p.occurrences html).filterMap fun m =>
    ((m.group? 1).or (m.group? 2)).bind (Decimal.word? 32)
  let wide := match widths.max? with
    | some w =>
      if limit < w then
        ["Fixed width of " ++ toString w ++ "px exceeds " ++ toString limit ++
          "px without max-width"]
      else []
    | none => []
  let fixed ← occurs html tableWidth
  return wide ++ if fixed then ["Tables use fixed pixel widths without max-width"] else []

def fontSize : String := "font-size\\s*:\\s*(\\d+(?:\\.\\d+)?)px"

def smallest (sizes : List Float) : Option Float :=
  sizes.foldl (fun least x => some (match least with
    | some y => Amount.min y x
    | none => x)) none

def mobile (html : Text) (t : Thresholds) : Task (List String) := do
  let fluid ← occurs html maxWidth
  let widths ← if fluid then pure [] else widthIssues html t.maxWidth
  let p ← .ask fontSize
  let sizes := (p.occurrences html).filterMap fun m => Decimal.simple? (m.group 1)
  let fonts := match smallest sizes with
    | some x =>
      if x < Float.ofNat t.minFontSize then
        ["Font size of " ++ Decimal.plain x ++ "px is below " ++ toString t.minFontSize ++
          "px and may be enlarged by iOS"]
      else []
    | none => []
  return widths ++ fonts

def issues (html : Text) (t : Thresholds) : Client → Task (List String)
  | .outlook => outlook html
  | .gmail => gmail html t
  | .appleMail => probe html appleMailProbes
  | .thunderbird => probe html thunderbirdProbes
  | .mobile => mobile html t

def reportOn (html : Text) (t : Thresholds) : List Client → Task CompatibilityReport
  | [] => .done []
  | c :: cs => do
    let found ← issues html t c
    let rest ← reportOn html t cs
    return (c, ⟨found⟩) :: rest

def report (s : Subject) : Task CompatibilityReport :=
  reportOn s.html s.settings.thresholds s.settings.clients.toList

end Compatibility

def CompatibilityReport.toDatum (r : CompatibilityReport) : Datum :=
  .record <| r.map fun (c, e) =>
    (c.name, .record [("compatible", .flag e.compatible), ("issues", .texts e.issues)])

end MailMarkup
