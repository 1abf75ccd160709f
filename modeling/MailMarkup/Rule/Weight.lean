import MailMarkup.Decimal.Fixed
import MailMarkup.Rule.Basic

/-!
# The size of a message
-/
namespace MailMarkup.Weight

def check : TextCheck := fun s info => do
  let limit := s.settings.thresholds.clipBytes
  let size := Text.byteSize s.html
  if size ≤ limit then return []
  else
    let message := "HTML is " ++ Decimal.fixed 1 (Float.ofNat size / 1024.0) ++
      " KB; Gmail clips messages larger than " ++ Decimal.fixed 0 (Float.ofNat limit / 1000.0) ++
      " KB"
    return [(Finding.of info message).suggest
      "Remove unused markup and move long content behind a link"]

def htmlSize : Rule :=
  Rule.onText {
    name := "html-size", displayName := "HTML size",
    description := "Gmail clips messages whose HTML exceeds about 102 KB",
    severity := .warning, category := .performance } check

end MailMarkup.Weight
