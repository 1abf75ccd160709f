import MailMarkup.Rule.Tags

/-!
# Script in attributes

Script addresses in links and images, and attributes that name event handlers.
-/
namespace MailMarkup.Script
open Text

def address : String :=
  "\\b(href|src|action|background)\\s*=\\s*" ++
    "(?:\"\\s*javascript:[^\"]*\"|'\\s*javascript:[^']*'|javascript:[^\\s>]*)"

def checkAddresses : TextCheck := fun s info => do
  let p ← .ask address
  return (p.occurrences s.html).map fun m =>
    Tags.finding info m ("'" ++ Tags.nameOf m ++ "' uses a javascript: URL")
      "Link to a real https:// destination"

def fixAddresses : Fix := fun s => do
  let p ← .ask address
  return p.replace (fun m => lower (m.group 1) ++ "=\"#\"".toList) s.html

/-- The characters within the first two bytes of a text, if these are whole characters. -/
def twoBytes? : Text → Option Text
  | a :: b :: _ =>
    if a.utf8Size = 2 then some [a]
    else if a.utf8Size = 1 && b.utf8Size = 1 then some [a, b]
    else none
  | [a] => if a.utf8Size ≤ 2 then some [a] else none
  | [] => some []

/-- Whether an attribute name is that of an event handler: `on` and a word of ASCII letters. A name
of more than two bytes of which the second ends inside a character is an error. -/
def isHandler (name : Text) : Except Failure Bool :=
  if byteSize name ≤ 2 then .ok false
  else
    match twoBytes? name with
    | some two => .ok (sameLetters two ['o', 'n'] && name.all isLetter)
    | none => .error (.crashed "<char boundary panic>")

/-- The handlers among the attributes of a tag, and the others. -/
def split (as : List Attribute) : Except Failure (List Attribute × List Attribute) := do
  let marked ← as.mapM fun a => (isHandler a.name).map (a, ·)
  return ((marked.filter (·.2)).map Prod.fst, (marked.filter (!·.2)).map Prod.fst)

def checkHandlers : TextCheck := fun s info => do
  let p ← .ask Tags.anyOpen
  let found ← .ofExcept <| (p.occurrences s.html).mapM fun m => do
    let (handlers, _) ← split (Tags.attributesOf m)
    return handlers.map fun a =>
      Tags.finding info m
        ("Event handler '" ++ String.ofList (lower a.name) ++ "' on <" ++ Tags.nameOf m ++
          "> will not run in email")
        "Remove the attribute"
  return found.flatten

def fixHandlers : Fix := fun s => do
  let p ← .ask Tags.anyOpen
  let (pieces, last) := Pattern.withGaps (.start s.html) (p.occurrences s.html) []
  let texts ← .ofExcept <| pieces.mapM fun (gap, m) => do
    let (handlers, others) ← split (Tags.attributesOf m)
    return gap ++ if handlers.isEmpty then m.text else Tags.withAttributes m others
  return texts.flatten ++ last.rest

def scriptUrls : Rule :=
  (Rule.onText {
    name := "javascript-urls", displayName := "No javascript: URLs",
    description := "javascript: URLs are blocked by every email client and flagged by spam filters",
    severity := .error, category := .structural } checkAddresses).withFix fixAddresses

def noEventHandlers : Rule :=
  (Rule.onText {
    name := "no-event-handlers", displayName := "No event handlers",
    description := "Inline on* event handler attributes never run in email",
    severity := .error, category := .structural } checkHandlers).withFix fixHandlers

end MailMarkup.Script
