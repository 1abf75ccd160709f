import MailMarkup.Rule.Tags

/-!
# Malformed attributes

Values are to be quoted, without blanks around the equals sign, with both quotes, and no attribute
is to be repeated. Repeated styles are another rule's business.
-/
namespace MailMarkup.Malformed
open Text

/-- What is wrong with an attribute, given the names before it. -/
def problem? (seen : List Text) (tag : String) (a : Attribute) : Option String :=
  let name := lower a.name
  let shown := String.ofList name
  if a.unterminated then
    some ("Attribute '" ++ shown ++ "' on <" ++ tag ++ "> has an unbalanced quote")
  else if a.spacedEquals then
    some ("Attribute '" ++ shown ++ "' on <" ++ tag ++ "> has whitespace around '='")
  else if a.isUnquoted then
    some ("Attribute '" ++ shown ++ "' on <" ++ tag ++ "> has an unquoted value")
  else if name != Style.attributeName && seen.contains name then
    some ("Attribute '" ++ shown ++ "' appears more than once on <" ++ tag ++ ">")
  else none

def problems (tag : String) : List Text → List Attribute → List String
  | _, [] => []
  | seen, a :: as => (problem? seen tag a).toList ++ problems tag (lower a.name :: seen) as

def check : TextCheck := fun s info => do
  let p ← .ask Tags.anyOpen
  return (p.occurrences s.html).flatMap fun m =>
    (problems (Tags.nameOf m) [] (Tags.attributesOf m)).map fun message =>
      Tags.finding info m message "Write attributes as name=\"value\" exactly once"

/-- The attributes without those that repeat an earlier name; styles are all kept. -/
def distinct : List Attribute → List Attribute → List Attribute
  | kept, [] => kept.reverse
  | kept, a :: as =>
    if !a.is Style.attributeName && kept.any (·.is a.name) then distinct kept as
    else distinct (a :: kept) as

def repair? (m : Match) : Option Text :=
  let as := Tags.attributesOf m
  let kept := distinct [] as
  if as.any (·.isMalformed) || kept.length != as.length then some (Tags.withAttributes m kept)
  else none

def fix : Fix := fun s => do
  let p ← .ask Tags.anyOpen
  return p.replaceSome repair? s.html

def rule : Rule :=
  (Rule.onText {
    name := "malformed-attributes", displayName := "Malformed attributes",
    description := "Attribute values must be quoted, balanced and not repeated",
    severity := .error, category := .structural } check).withFix fix

end MailMarkup.Malformed
