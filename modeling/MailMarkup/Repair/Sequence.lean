import MailMarkup.Rule.Registry

/-!
# The order of repairs

Some built-in repairs rely on others having run before them, so they come first in a set order. The
other built-in ones follow by name, and then the added ones by name.
-/
namespace MailMarkup.Repair

def fixOrder : List String := [
  "no-dangerous-tags", "no-heading-tags", "no-paragraph-tags", "no-block-tags", "tag-format",
  "malformed-attributes", "javascript-urls", "link-attributes", "image-alt-text",
  "image-attributes", "table-attributes", "duplicate-styles", "table-nesting", "empty-elements"]

def byName (rules : List Rule) : List Rule := rules.mergeSort fun a b => a.name ≤ b.name

/-- The rules with repairs that are enabled and included, in the order in which they run. -/
def sequence (g : Registry) (s : Settings) (include_ : Rule → Bool) : List Rule :=
  let eligible (r : Rule) : Bool := r.info.fixable && s.enables r.info && include_ r
  let ordered := fixOrder.filterMap fun name => g.builtin.find? (·.name == name)
  let others := g.builtin.filter fun r => !fixOrder.contains r.name
  ordered.filter eligible ++ byName (others.filter eligible) ++ byName (g.custom.filter eligible)

end MailMarkup.Repair
