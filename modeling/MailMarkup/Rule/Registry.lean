import MailMarkup.Rule.DuplicateStyle
import MailMarkup.Rule.Forbidden
import MailMarkup.Rule.LinkText
import MailMarkup.Rule.Malformed
import MailMarkup.Rule.Missing
import MailMarkup.Rule.Script
import MailMarkup.Rule.Support
import MailMarkup.Rule.TableNesting
import MailMarkup.Rule.TagFormat
import MailMarkup.Rule.Tidy
import MailMarkup.Rule.Weight

/-!
# The rules in force

Built-in and added rules, each in the order in which they were registered. A name is registered
once: registering it again replaces the rule, in whichever of the two sets it was.
-/
namespace MailMarkup

def builtinRules : List Rule := [
  Forbidden.noDangerousTags, Forbidden.noHeadingTags, Forbidden.noParagraphTags,
  Forbidden.noBlockTags, TagFormat.rule, Malformed.rule, Script.scriptUrls,
  Script.noEventHandlers,
  Missing.imageAltText, LinkText.rule, Missing.tableAttributes, Missing.htmlLang,
  Support.emailSafeTags, Support.cssCompatibility, Support.embeddedStyles,
  Support.externalStylesheets, Support.backgroundImages, Support.fixedWidths,
  Weight.htmlSize, Missing.imageDimensions, TableNesting.rule,
  Missing.linkAttributes, Missing.imageAttributes, DuplicateStyle.rule, Tidy.emptyElements,
  Tidy.missingDoctype]

structure Registry where
  builtin : List Rule := []
  custom : List Rule := []

namespace Registry

def without (rules : List Rule) (name : String) : List Rule := rules.filter (·.name != name)

/-- A rule in the place of the first one with its name, or at the end. -/
def place : List Rule → Rule → List Rule
  | [], r => [r]
  | x :: rules, r => if x.name == r.name then r :: rules else x :: place rules r

def insertBuiltin (g : Registry) (r : Rule) : Registry :=
  ⟨place g.builtin r, without g.custom r.name⟩

def addCustom (g : Registry) (r : Rule) : Registry :=
  ⟨without g.builtin r.name, place g.custom r⟩

def standard : Registry := builtinRules.foldl insertBuiltin {}

def rules (g : Registry) : List Rule := g.builtin ++ g.custom

def get? (g : Registry) (name : String) : Option Rule := g.rules.find? (·.name == name)

def contains (g : Registry) (name : String) : Bool := (g.get? name).isSome

def isCustom (g : Registry) (name : String) : Bool := g.custom.any (·.name == name)

def size (g : Registry) : Nat := g.builtin.length + g.custom.length

def isEmpty (g : Registry) : Bool := g.builtin.isEmpty && g.custom.isEmpty

/-- Takes a name out, and says whether it was there. -/
def remove (g : Registry) (name : String) : Bool × Registry :=
  let g' : Registry := ⟨without g.builtin name, without g.custom name⟩
  (g'.size != g.size, g')

end Registry
end MailMarkup
