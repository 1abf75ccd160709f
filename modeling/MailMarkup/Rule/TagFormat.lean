import MailMarkup.Rule.Tags

/-!
# How tags are written

Names in lower case, and no closing tags for void elements.
-/
namespace MailMarkup.TagFormat
open Text

def check : TextCheck := fun s info => do
  let names ← .askWith "</?([a-zA-Z][a-zA-Z0-9]*)\\b" .none
  let cased := (names.occurrences s.html).filterMap fun m =>
    let name := m.group 1
    if name.any isUpper then
      some (Tags.finding info m ("Tag name '" ++ String.ofList name ++ "' should be lower-case")
        ("Write '" ++ Tags.nameOf m ++ "'"))
    else none
  let closers ← .ask (Tags.closing Tags.voids)
  let closed := (closers.occurrences s.html).map fun m =>
    let name := Tags.nameOf m
    Tags.finding info m ("Void element <" ++ name ++ "> must not have a closing tag")
      ("Use <" ++ name ++ " /> without a closing tag")
  return cased ++ closed

def fix : Fix := fun s => do
  let names ← .askWith "(</?)([a-zA-Z][a-zA-Z0-9]*)\\b" .none
  let lowered := names.replaceSome (fun m =>
    let name := m.group 2
    if name.any isUpper then some (m.group 1 ++ lower name) else none) s.html
  let breaks ← .ask "</br\\s*>"
  let broken := breaks.replace (fun _ => "<br />".toList) lowered
  let closers ← .ask (Tags.closing Tags.voids)
  return closers.replace (fun _ => []) broken

def rule : Rule :=
  (Rule.onText {
    name := "tag-format", displayName := "Tag format",
    description := "Tag names should be lower-case and void elements must not have closing tags",
    severity := .warning, category := .structural } check).withFix fix

end MailMarkup.TagFormat
