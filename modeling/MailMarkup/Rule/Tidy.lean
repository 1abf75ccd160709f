import MailMarkup.Rule.Tags

/-!
# Empty elements and the doctype
-/
namespace MailMarkup.Tidy
open Text

def inlineTags : List String :=
  ["span", "strong", "b", "em", "i", "u", "font", "small", "big", "s", "strike", "sub", "sup"]

/-- An inline element with nothing in it; whether the two names agree is checked apart. -/
def emptyElement : String :=
  let names := Tags.alternatives inlineTags
  "<(" ++ names ++ ")\\b[^<>]*>\\s*</(" ++ names ++ ")\\s*>"

def closesItself (m : Match) : Bool := sameLetters (m.group 1) (m.group 2)

def checkEmpty : TextCheck := fun s info => do
  let p ← .ask emptyElement
  return ((p.occurrences s.html).filter closesItself).map fun m =>
    Tags.finding info m ("Empty <" ++ Tags.nameOf m ++ "> element") "Remove the element"

def fixEmpty : Fix := fun s => do
  let p ← .ask emptyElement
  return p.replaceSome (fun m => if closesItself m then some [] else none) s.html

/-- Where the document element starts, if no doctype is given. -/
def undeclared? (html : Text) : Task (Option Match) := do
  let root ← .ask "<html\\b"
  let doctype ← .ask "<!doctype\\b"
  return (root.first? html).filter fun _ => !doctype.isIn html

def checkDoctype : TextCheck := fun s info => do
  return (← undeclared? s.html).toList.map fun m =>
    Tags.finding info m "Document has no doctype" "Start the document with <!DOCTYPE html>"

def fixDoctype : Fix := fun s => do
  return if (← undeclared? s.html).isSome then "<!DOCTYPE html>\n".toList ++ s.html else s.html

def emptyElements : Rule :=
  (Rule.onText {
    name := "empty-elements", displayName := "Empty elements",
    description := "Empty inline elements add weight without content",
    severity := .info, category := .bestPractice } checkEmpty).withFix fixEmpty

def missingDoctype : Rule :=
  (Rule.onText {
    name := "missing-doctype", displayName := "Missing doctype",
    description := "Full documents should start with a doctype to avoid quirks mode",
    severity := .info, category := .bestPractice } checkDoctype).withFix fixDoctype

end MailMarkup.Tidy
