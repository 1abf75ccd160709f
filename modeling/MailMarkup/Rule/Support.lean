import MailMarkup.Decimal.Read
import MailMarkup.Rule.Tags

/-!
# What clients support

Tags and styles that clients ignore or strip. A check that concerns particular clients runs only if
one of them is targeted.
-/
namespace MailMarkup.Support
open Text

/-- Tags that render alike in all clients. -/
def safeTags : List String :=
  ["html", "head", "body", "meta", "title", "style", "link", "base", "table", "thead", "tbody",
    "tfoot", "tr", "td", "th", "caption", "col", "colgroup", "a", "img", "map", "area", "span",
    "strong", "b", "em", "i", "u", "br", "hr", "font", "center", "small", "big", "s", "strike",
    "sub", "sup", "ul", "ol", "li", "blockquote", "pre", "code"]

def coveredElsewhere (tag : String) : Bool :=
  Tags.dangerous.contains tag || Tags.headings.contains tag || Tags.blocks.contains tag ||
    tag = "p"

/-- The first match of each tag that is neither safe nor another rule's. -/
def unlistedTags : List String → List Match → List Match
  | _, [] => []
  | seen, m :: ms =>
    let tag := Tags.nameOf m
    if safeTags.contains tag || coveredElsewhere tag || seen.contains tag then unlistedTags seen ms
    else m :: unlistedTags (tag :: seen) ms

def checkTags : TextCheck := fun s info => do
  let p ← .ask Tags.anyOpen
  return (unlistedTags [] (p.occurrences s.html)).map fun m =>
    Tags.finding info m ("<" ++ Tags.nameOf m ++ "> is not an email-safe tag")
      "Use tables, spans and inline formatting tags"

structure Feature where
  pattern : String
  label : String
  unsupportedBy : List Client

def features : List Feature := [
  ⟨"display\\s*:\\s*(?:inline-)?flex\\b", "display:flex", [.outlook]⟩,
  ⟨"display\\s*:\\s*(?:inline-)?grid\\b", "display:grid", [.outlook, .gmail]⟩,
  ⟨"position\\s*:\\s*(?:absolute|fixed|relative|sticky)\\b", "CSS positioning",
    [.outlook, .gmail]⟩,
  ⟨"float\\s*:\\s*(?:left|right)\\b", "float", [.outlook]⟩,
  ⟨"(?:linear|radial)-gradient\\s*\\(", "CSS gradients", [.outlook]⟩,
  ⟨"border-radius\\s*:", "border-radius", [.outlook]⟩]

def plural (n : Nat) : String := if n = 1 then "" else "s"

def checkFeatures (s : Subject) (info : RuleInfo) : List Feature → Task (List Finding)
  | [] => .done []
  | f :: fs => do
    match f.unsupportedBy.filter s.settings.clients.has with
    | [] => checkFeatures s info fs
    | affected =>
      let p ← .ask f.pattern
      let found := match p.occurrences s.html with
        | [] => []
        | m :: ms =>
          let n := ms.length + 1
          let clients := String.intercalate " and " (affected.map Client.displayName)
          [Tags.finding info m
            (f.label ++ " is not supported by " ++ clients ++ " (" ++ toString n ++
              " occurrence" ++ plural n ++ ")")
            "Use table-based layout for structure"]
      return found ++ (← checkFeatures s info fs)

def checkEmbedded : TextCheck := fun s info => do
  let p ← .ask "<style\\b"
  return (p.occurrences s.html).map fun m =>
    Tags.finding info m "Embedded <style> block may be stripped"
      "Inline critical styles on the elements they apply to"

def linksStylesheet (m : Match) : Bool :=
  ((Attribute.find? (Tags.attributesOf m) "rel".toList).bind (·.value)).any fun rel =>
    contains (lower rel) "stylesheet".toList

def checkExternal : TextCheck := fun s info => do
  let links ← .ask (Tags.opening ["link"])
  let linked := ((links.occurrences s.html).filter linksStylesheet).map fun m =>
    Tags.finding info m "Linked stylesheet will not be loaded" "Inline the styles"
  let imports ← .ask "@import\\b"
  let imported := (imports.occurrences s.html).map fun m =>
    Tags.finding info m "@import will not be loaded" "Inline the imported styles"
  return linked ++ imported

def fixExternal : Fix := fun s => do
  let links ← .ask (Tags.opening ["link"])
  return links.replaceSome (fun m => if linksStylesheet m then some [] else none) s.html

def backgroundImage : String :=
  "background-image\\s*:\\s*url\\(|background\\s*:[^;\"'>]*url\\(|" ++
    "\\bbackground\\s*=\\s*[\"']?[^\"'\\s>]+"

def checkBackgrounds : TextCheck := fun s info => do
  if s.settings.clients.outlook then
    let p ← .ask backgroundImage
    return (p.occurrences s.html).map fun m =>
      Tags.finding info m "Background image is not shown by Outlook"
        "Set a background colour fallback or add a VML background"
  else return []

def fixedWidth : String :=
  "\\bwidth\\s*(?::\\s*(\\d+)px|=\\s*[\"']?(\\d+)(?:px)?\\b)"

/-- The width a match states, if it is a number of 32 bits. -/
def statedWidth? (m : Match) : Option Nat :=
  ((m.group? 1).or (m.group? 2)).bind (Decimal.word? 32)

def checkWidths : TextCheck := fun s info => do
  if s.settings.clients.mobile then
    let limit := s.settings.thresholds.maxWidth
    let p ← .ask fixedWidth
    return (p.occurrences s.html).filterMap fun m =>
      -- the widths that keep a layout flexible have names that end in this one
      if m.start.before == some '-' then none
      else
        match statedWidth? m with
        | some width =>
          if limit < width then
            some (Tags.finding info m
              ("Fixed width of " ++ toString width ++ "px exceeds " ++ toString limit ++ "px")
              ("Use width:100% with max-width:" ++ toString limit ++ "px"))
          else none
        | none => none
  else return []

def emailSafeTags : Rule :=
  Rule.onText {
    name := "email-safe-tags", displayName := "Email-safe tags",
    description := "Tags outside the email-safe set render inconsistently",
    severity := .warning, category := .compatibility } checkTags

def cssCompatibility : Rule :=
  Rule.onText {
    name := "css-compatibility", displayName := "CSS compatibility",
    description := "Layout CSS such as flexbox, grid and positioning is unsupported by major clients",
    severity := .warning, category := .compatibility }
    fun s info => checkFeatures s info features

def embeddedStyles : Rule :=
  Rule.onText {
    name := "embedded-styles", displayName := "Embedded styles",
    description := "Some clients strip <style> blocks; critical styles should be inline",
    severity := .warning, category := .compatibility } checkEmbedded

def externalStylesheets : Rule :=
  (Rule.onText {
    name := "external-stylesheets", displayName := "External stylesheets",
    description := "Email clients never load linked or imported stylesheets",
    severity := .error, category := .compatibility } checkExternal).withFix fixExternal

def backgroundImages : Rule :=
  Rule.onText {
    name := "background-images", displayName := "Background images",
    description := "Outlook ignores background images without a VML fallback",
    severity := .warning, category := .compatibility } checkBackgrounds

def fixedWidths : Rule :=
  Rule.onText {
    name := "fixed-widths", displayName := "Fixed widths",
    description := "Wide fixed widths overflow mobile screens",
    severity := .info, category := .compatibility } checkWidths

end MailMarkup.Support
