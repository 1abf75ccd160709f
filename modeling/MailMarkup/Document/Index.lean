import MailMarkup.Document.Node

/-!
# Looking up elements

An index answers queries over one forest and remembers what it has answered. An answer has at most
a set number of elements, and the index remembers whether one was cut short.
-/
namespace MailMarkup

/-- Tags grouped by the part they play in a message. -/
inductive Role where
  | heading | block | table | media | link | interactive | dangerous | inline
  deriving DecidableEq, Repr

namespace Role

def all : List Role :=
  [.heading, .block, .table, .media, .link, .interactive, .dangerous, .inline]

def name : Role → String
  | .heading => "heading"
  | .block => "block"
  | .table => "table"
  | .media => "media"
  | .link => "link"
  | .interactive => "interactive"
  | .dangerous => "dangerous"
  | .inline => "inline"

def tags : Role → List String
  | .heading => ["h1", "h2", "h3", "h4", "h5", "h6"]
  | .block =>
    ["div", "p", "section", "article", "header", "footer", "nav", "aside", "main", "figure",
      "figcaption", "address", "blockquote"]
  | .table => ["table", "thead", "tbody", "tfoot", "tr", "td", "th"]
  | .media => ["img", "video", "audio", "picture", "source", "svg"]
  | .link => ["a", "link"]
  | .interactive =>
    ["form", "input", "button", "select", "textarea", "option", "label", "fieldset"]
  | .dangerous =>
    ["script", "iframe", "object", "embed", "applet", "frame", "frameset", "noscript"]
  | .inline =>
    ["span", "strong", "b", "em", "i", "u", "font", "small", "big", "s", "strike", "sub", "sup",
      "br"]

def has (r : Role) (tag : Text) : Bool := r.tags.any (·.toList == tag)

end Role

inductive Query where
  | tag (name : Text)
  | attribute (name : Text)
  | role (r : Role)
  deriving DecidableEq, Repr

namespace Query

def normal : Query → Query
  | .tag name => .tag (Text.lower name)
  | .attribute name => .attribute (Text.lower name)
  | .role r => .role r

def fits (e : Element) : Query → Bool
  | .tag name => e.tag == name
  | .attribute name => e.hasAttribute name
  | .role r => r.has e.tag

end Query

structure Index where
  forest : Forest
  maxResults : Nat
  known : List (Query × List Element) := []
  truncated : Bool := false

namespace Index

def new (forest : Forest) (maxResults : Nat) : Index := { forest, maxResults := max maxResults 1 }

/-- Goes on with a walk in document order, given by the nodes still to come on each level, innermost
first. Elements that fit are added to those found, last first. The walk ends early at one for which
there is no room, and the flag tells so. -/
def collect (fits : Element → Bool) (room : Nat) (found : List Element) :
    List Forest → List Element × Bool
  | [] => (found.reverse, false)
  | [] :: levels => collect fits room found levels
  | (.element h cs :: ns) :: levels =>
    if fits ⟨h, cs⟩ then
      match room with
      | 0 => (found.reverse, true)
      | room + 1 => collect fits room (⟨h, cs⟩ :: found) (cs :: ns :: levels)
    else collect fits room found (cs :: ns :: levels)
  | (_ :: ns) :: levels => collect fits room found (ns :: levels)

def find (ix : Index) (q : Query) : List Element × Index :=
  let q := q.normal
  match ix.known.lookup q with
  | some found => (found, ix)
  | none =>
    let (found, cut) := collect (q.fits ·) ix.maxResults [] [ix.forest]
    (found, { ix with known := (q, found) :: ix.known, truncated := ix.truncated || cut })

end Index
end MailMarkup
