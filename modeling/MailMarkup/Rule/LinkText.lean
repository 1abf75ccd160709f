import MailMarkup.Rule.Basic

/-!
# Links need something to read
-/
namespace MailMarkup.LinkText
open Text

def speaks (e : Element) (name : String) : Bool :=
  (e.attribute? name.toList).any fun v => !(trim v).isEmpty

/-- A label, an image with alternative text, or text. -/
def isReadable (link : Element) : Bool :=
  speaks link "aria-label" || speaks link "title" ||
    link.children.elements.any (fun e => e.tag == "img".toList && speaks e "alt") ||
    !(trim link.textContent).isEmpty

def check : TreeCheck := fun _ _ info => do
  let links ← .elements (.tag ['a'])
  return (links.filter (!isReadable ·)).map fun link =>
    ((Finding.of info "Link has no readable text").at_ link.start).suggest
      "Add link text, or alt text to the linked image"

def rule : Rule :=
  Rule.onTree {
    name := "link-text", displayName := "Link text",
    description := "Links need readable text or an image with alt text",
    severity := .warning, category := .accessibility } check

end MailMarkup.LinkText
