import MailMarkup.Rule.Tags

/-!
# Styles set twice

A tag is to have one style attribute that sets each property once.
-/
namespace MailMarkup.DuplicateStyle
open Text

inductive Problem where
  | attributes (count : Nat)
  | property (name : Text)
  deriving DecidableEq, Repr

/-- The first property that an earlier declaration has set. -/
def repeated? : List Text → List Declaration → Option Text
  | _, [] => none
  | seen, d :: ds => if seen.contains d.1 then some d.1 else repeated? (d.1 :: seen) ds

def styles (as : List Attribute) : List Attribute := as.filter (·.is Style.attributeName)

def problem? (as : List Attribute) : Option Problem :=
  match styles as with
  | [] => none
  | [a] => (repeated? [] (Style.parse (a.value.getD []))).map .property
  | more => some (.attributes more.length)

def Problem.message (tag : String) : Problem → String
  | .attributes n => "<" ++ tag ++ "> has " ++ toString n ++ " style attributes"
  | .property p => "Style on <" ++ tag ++ "> sets '" ++ String.ofList p ++ "' more than once"

def check : TextCheck := fun s info => do
  let p ← .ask Tags.anyOpen
  return (p.occurrences s.html).filterMap fun m =>
    (problem? (Tags.attributesOf m)).map fun problem =>
      Tags.finding info m (problem.message (Tags.nameOf m))
        "Merge declarations into a single style attribute"

/-- The attributes with the first style replaced and the others dropped. -/
def withStyle (merged : Text) : List Attribute → List Attribute
  | [] => []
  | a :: as =>
    if a.is Style.attributeName then
      .of Style.attributeName merged :: as.filter (!·.is Style.attributeName)
    else a :: withStyle merged as

def repair? (m : Match) : Option Text :=
  let as := Tags.attributesOf m
  (problem? as).map fun _ =>
    let ds := (styles as).flatMap fun a => Style.parse (a.value.getD [])
    Tags.withAttributes m (withStyle (Style.render (Style.dedupe ds)) as)

def fix : Fix := fun s => do
  let p ← .ask Tags.anyOpen
  return p.replaceSome repair? s.html

def rule : Rule :=
  (Rule.onText {
    name := "duplicate-styles", displayName := "Duplicate styles",
    description := "Repeated style attributes or properties are resolved differently by each client",
    severity := .warning, category := .bestPractice } check).withFix fix

end MailMarkup.DuplicateStyle
