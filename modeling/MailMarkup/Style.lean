import MailMarkup.Attribute

/-!
# Inline styles

A style value is a list of declarations, property and value. Merging keeps each property where it
stood first and gives it the value declared last.
-/
namespace MailMarkup
open Text

abbrev Declaration := Text × Text

namespace Style

def declaration? (t : Text) : Option Declaration :=
  match cut? [':'] t with
  | none => none
  | some (p, v) =>
    let property := lower (trim p)
    let value := trim v
    if property.isEmpty || value.isEmpty then none else some (property, value)

/-- The declarations of a style value; malformed ones are dropped. -/
def parse (t : Text) : List Declaration := (splitOn ';' t).filterMap declaration?

def set (ds : List Declaration) (d : Declaration) : List Declaration :=
  if ds.any (·.1 == d.1) then ds.map fun e => if e.1 == d.1 then (e.1, d.2) else e
  else ds ++ [d]

/-- Each property once, at its first place and with its last value. -/
def dedupe (ds : List Declaration) : List Declaration := ds.foldl set []

def render (ds : List Declaration) : Text := ds.flatMap fun d => d.1 ++ [':'] ++ d.2 ++ [';']

/-- Both styles in one; `overrides` wins. -/
def merge (base overrides : Text) : Text := render (dedupe (parse base ++ parse overrides))

def attributeName : Text := "style".toList

/-- Attribute text with `base` under the styles that are set in it. -/
def withBase (t base : Text) : Text :=
  let as := Attribute.scan t
  let existing := (as.filter (·.is attributeName)).filterMap (·.value)
  let merged := merge base (join [';'] existing)
  Attribute.renderAll (as.filter (!·.is attributeName) ++ [.of attributeName merged])

end Style
end MailMarkup
