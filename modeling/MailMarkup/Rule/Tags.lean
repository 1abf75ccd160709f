import MailMarkup.Rule.Basic
import MailMarkup.Style

/-!
# Tags in the text

The patterns for opening and closing tags that the rules on text share. In an opening tag group 1 is
the name, group 2 the attribute text and group 3 the slash of a tag that closes itself.
-/
namespace MailMarkup.Tags

def alternatives (names : List String) : String := String.intercalate "|" names

def anyOpen : String := "<([a-zA-Z][a-zA-Z0-9]*)\\b([^<>]*?)(/?)>"

def opening (names : List String) : String := "<(" ++ alternatives names ++ ")\\b([^<>]*?)(/?)>"

def closing (names : List String) : String := "</(" ++ alternatives names ++ ")\\s*>"

def dangerous : List String :=
  ["script", "iframe", "object", "embed", "applet", "form", "input", "button", "select",
    "textarea", "option", "label", "fieldset", "legend", "noscript", "frame", "frameset"]

def headings : List String := ["h1", "h2", "h3", "h4", "h5", "h6"]

def blocks : List String :=
  ["div", "section", "article", "header", "footer", "nav", "aside", "main", "figure",
    "figcaption", "address"]

def voids : List String := Reader.voidTags.map String.ofList

def nameOf (m : Match) : String := String.ofList (Text.lower (m.group 1))

def attributesOf (m : Match) : List Attribute := Attribute.scan (m.group 2)

/-- A matched opening tag with other attributes. -/
def withAttributes (m : Match) (as : List Attribute) : Text :=
  '<' :: m.group 1 ++ Attribute.renderAll as ++
    if (m.group 3).isEmpty then ['>'] else [' ', '/', '>']

def finding (info : RuleInfo) (m : Match) (message suggestion : String) : Finding :=
  ((Finding.of info message).at_ m.start.pos).suggest suggestion

end MailMarkup.Tags
