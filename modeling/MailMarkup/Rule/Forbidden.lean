import MailMarkup.Rule.Tags

/-!
# Tags that have no place in a message

Dangerous elements are removed, some of them with all they hold. Headings, paragraphs and blocks
become spans that carry the style the tag stood for under the styles set by the author.
-/
namespace MailMarkup.Forbidden
open Text

/-- Elements that go together with their content. -/
def strippedWhole : List String :=
  ["script", "iframe", "object", "applet", "noscript", "select", "textarea", "button", "legend",
    "frameset"]

def formControls : List String :=
  ["form", "input", "button", "select", "textarea", "option", "label", "fieldset", "legend"]

def dangerousOpening : String := "<(" ++ Tags.alternatives Tags.dangerous ++ ")\\b"

def checkDangerous : TextCheck := fun s info => do
  let p ← .ask dangerousOpening
  return (p.occurrences s.html).map fun m =>
    let tag := Tags.nameOf m
    Tags.finding info m ("<" ++ tag ++ "> is not allowed in email HTML") <|
      if formControls.contains tag then "Link to a hosted form instead of embedding controls"
      else "Remove the element; email clients will not execute or render it"

def wholeElement (tag : String) : String := "<" ++ tag ++ "\\b[^>]*>.*?</" ++ tag ++ "\\s*>"

def leftover : String := "</?(" ++ Tags.alternatives Tags.dangerous ++ ")\\b[^<>]*>"

def strip (html : Text) : List String → Task Text
  | [] => .done html
  | tag :: tags => do
    let p ← .askWith (wholeElement tag) .spanning
    strip (p.replace (fun _ => []) html) tags

def fixDangerous : Fix := fun s => do
  let html ← strip s.html strippedWhole
  let p ← .ask leftover
  return p.replace (fun _ => []) html

def check (tags : List String) (suggestion : String) : TextCheck := fun s info => do
  let p ← .ask (Tags.opening tags)
  return (p.occurrences s.html).map fun m =>
    Tags.finding info m ("<" ++ Tags.nameOf m ++ "> is not email-safe") suggestion

/-- A span in place of a matched opening tag. -/
def span (style : String → String) (m : Match) : Text :=
  "<span".toList ++ Style.withBase (m.group 2) (style (Tags.nameOf m)).toList ++
    if (m.group 3).isEmpty then ['>'] else [' ', '/', '>']

def toSpans (tags : List String) (style : String → String) : Fix := fun s => do
  let opening ← .ask (Tags.opening tags)
  let closing ← .ask (Tags.closing tags)
  return closing.replace (fun _ => "</span>".toList) (opening.replace (span style) s.html)

def headingStyle (tag : String) : String :=
  if tag = "h1" then "display:block;font-size:32px;font-weight:bold;margin:0 0 16px 0;"
  else if tag = "h2" then "display:block;font-size:24px;font-weight:bold;margin:0 0 14px 0;"
  else if tag = "h3" then "display:block;font-size:19px;font-weight:bold;margin:0 0 12px 0;"
  else if tag = "h4" then "display:block;font-size:16px;font-weight:bold;margin:0 0 10px 0;"
  else if tag = "h5" then "display:block;font-size:13px;font-weight:bold;margin:0 0 8px 0;"
  else "display:block;font-size:12px;font-weight:bold;margin:0 0 8px 0;"

def fixHeadings : Fix := toSpans Tags.headings headingStyle

def fixParagraphs : Fix := toSpans ["p"] fun _ => "display:block;margin:0 0 16px 0;"

def fixBlocks : Fix := toSpans Tags.blocks fun _ => "display:block;"

def noDangerousTags : Rule :=
  (Rule.onText {
    name := "no-dangerous-tags", displayName := "No dangerous tags",
    description := "Scripts, frames, embedded objects and form controls are stripped or blocked by email clients",
    severity := .error, category := .structural } checkDangerous).withFix fixDangerous

def noHeadingTags : Rule :=
  (Rule.onText {
    name := "no-heading-tags", displayName := "No heading tags",
    description := "Heading tags receive unpredictable default margins and sizes across clients",
    severity := .error, category := .structural }
    (check Tags.headings "Use a <span> or <td> with inline font-size and font-weight")).withFix
    fixHeadings

def noParagraphTags : Rule :=
  (Rule.onText {
    name := "no-paragraph-tags", displayName := "No paragraph tags",
    description := "Paragraph margins differ between clients; use styled spans or table cells",
    severity := .error, category := .structural }
    (check ["p"]
      "Use a <span style=\"display:block\"> or a table cell with explicit margins")).withFix
    fixParagraphs

def noBlockTags : Rule :=
  (Rule.onText {
    name := "no-block-tags", displayName := "No block tags",
    description := "Layout with div and HTML5 sectioning elements is not supported by Outlook",
    severity := .error, category := .structural }
    (check Tags.blocks "Use tables for layout and spans for inline grouping")).withFix fixBlocks

end MailMarkup.Forbidden
