import MailMarkup.Rule.Tags

/-!
# Attributes that are missing

A demand names a tag and the attributes it is to have, with the values to fill in. The repair writes
them at the end of each tag that lacks them.
-/
namespace MailMarkup.Missing
open Text

abbrev Default := String × String

def written (d : Default) : String := d.1 ++ "=\"" ++ d.2 ++ "\""

structure Demand where
  tag : String
  missing : List Attribute → List Default

/-- Whatever of a fixed list is not there. -/
def Demand.all (tag : String) (defaults : List Default) : Demand where
  tag := tag
  missing as := defaults.filter fun d => !Attribute.has as d.1.toList

def Demand.check (d : Demand) (report : RuleInfo → Match → List Default → List Finding) :
    TextCheck := fun s info => do
  let p ← .ask (Tags.opening [d.tag])
  return (p.occurrences s.html).flatMap fun m =>
    match d.missing (Tags.attributesOf m) with
    | [] => []
    | missing => report info m missing

def Demand.fix (d : Demand) : Fix := fun s => do
  let p ← .ask (Tags.opening [d.tag])
  return p.replaceSome (fun m =>
    match d.missing (Tags.attributesOf m) with
    | [] => none
    | missing =>
      some (Attribute.insertInto m.text (String.intercalate " " (missing.map written)).toList))
    s.html

def source (m : Match) : String :=
  String.ofList (((Attribute.find? (Tags.attributesOf m) "src".toList).bind (·.value)).getD [])

def altText : Demand := .all "img" [("alt", "")]

def dimensions : Demand := .all "img" [("width", ""), ("height", "")]

def border : Demand := .all "img" [("border", "0")]

def language : Demand := .all "html" [("lang", "en")]

def layoutTable : Demand :=
  .all "table"
    [("role", "presentation"), ("cellpadding", "0"), ("cellspacing", "0"), ("border", "0")]

def opensWindow (as : List Attribute) : Bool :=
  ((Attribute.find? as "target".toList).bind (·.value)).any (sameLetters "_blank".toList)

def link : Demand where
  tag := "a"
  missing as :=
    (if Attribute.has as "href".toList then [] else [("href", "#")]) ++
    (if opensWindow as && !Attribute.has as "rel".toList then [("rel", "noopener noreferrer")]
      else [])

def imageAltText : Rule :=
  (Rule.onText {
    name := "image-alt-text", displayName := "Image alt text",
    description := "Images need alt text for screen readers and for clients that block images",
    severity := .error, category := .accessibility }
    (altText.check fun info m _ =>
      [Tags.finding info m ("Image '" ++ source m ++ "' is missing alt text")
        "Describe the image in alt, or use alt=\"\" for decorative images"])).withFix altText.fix

def tableAttributes : Rule :=
  (Rule.onText {
    name := "table-attributes", displayName := "Layout table attributes",
    description := "Layout tables should be marked role=\"presentation\" and reset spacing explicitly",
    severity := .warning, category := .accessibility }
    (layoutTable.check fun info m missing =>
      [Tags.finding info m
        ("Table is missing " ++ String.intercalate ", " (missing.map Prod.fst))
        ("Add " ++ String.intercalate " " (missing.map written))])).withFix layoutTable.fix

def htmlLang : Rule :=
  (Rule.onText {
    name := "html-lang", displayName := "Document language",
    description := "The html element should declare the content language",
    severity := .info, category := .accessibility }
    (language.check fun info m _ =>
      [Tags.finding info m "The html element has no lang attribute"
        "Add lang=\"en\" (or the content's language)"])).withFix language.fix

def imageDimensions : Rule :=
  Rule.onText {
    name := "image-dimensions", displayName := "Image dimensions",
    description := "Images without explicit width and height cause layout shifts and Outlook scaling bugs",
    severity := .warning, category := .performance }
    (dimensions.check fun info m missing =>
      [Tags.finding info m
        ("Image '" ++ source m ++ "' has no " ++
          String.intercalate " or " (missing.map Prod.fst) ++ " attribute")
        "Set width and height attributes to the intended display size"])

def linkAttributes : Rule :=
  (Rule.onText {
    name := "link-attributes", displayName := "Link attributes",
    description := "Links need an href, and links opening a new window need rel=\"noopener noreferrer\"",
    severity := .warning, category := .bestPractice }
    (link.check fun info m missing => missing.map fun d =>
      Tags.finding info m
        (if d.1 = "href" then "Link has no href"
          else "Link opens a new window without rel=\"noopener noreferrer\"")
        ("Add " ++ written d))).withFix link.fix

def imageAttributes : Rule :=
  (Rule.onText {
    name := "image-attributes", displayName := "Image attributes",
    description := "Linked images get a blue border in some clients unless border=\"0\" is set",
    severity := .info, category := .bestPractice }
    (border.check fun info m _ =>
      [Tags.finding info m "Image has no border attribute" "Add border=\"0\""])).withFix border.fix

end MailMarkup.Missing
