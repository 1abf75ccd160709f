import MailMarkup.Text.Basic

/-!
# Email clients
-/
namespace MailMarkup

inductive Client where
  | outlook | gmail | appleMail | thunderbird | mobile
  deriving DecidableEq, Repr, Inhabited

namespace Client

def all : List Client := [.outlook, .gmail, .appleMail, .thunderbird, .mobile]

def name : Client → String
  | .outlook => "outlook"
  | .gmail => "gmail"
  | .appleMail => "apple-mail"
  | .thunderbird => "thunderbird"
  | .mobile => "mobile"

def displayName : Client → String
  | .outlook => "Outlook"
  | .gmail => "Gmail"
  | .appleMail => "Apple Mail"
  | .thunderbird => "Thunderbird"
  | .mobile => "Mobile"

def parse (t : Text) : Except String Client :=
  let s := String.ofList (Text.lower (Text.trim t))
  if s = "outlook" then .ok .outlook
  else if s = "gmail" then .ok .gmail
  else if s = "apple-mail" || s = "apple_mail" || s = "applemail" then .ok .appleMail
  else if s = "thunderbird" then .ok .thunderbird
  else if s = "mobile" then .ok .mobile
  else .error ("unknown email client '" ++ s ++ "'")

/-- The clients of a list with commas, each once; blank places are passed over. -/
def parseList (t : Text) : Except String (List Client) :=
  ((Text.splitOn ',' t).map Text.trim).filter (!·.isEmpty) |>.foldlM (fun cs name =>
    (parse name).map fun c => if cs.contains c then cs else cs ++ [c]) []

end Client

/-- The clients that a message is meant for. -/
structure Clients where
  outlook : Bool := true
  gmail : Bool := true
  appleMail : Bool := true
  thunderbird : Bool := true
  mobile : Bool := true
  deriving DecidableEq, Repr, Inhabited

namespace Clients

def has (cs : Clients) : Client → Bool
  | .outlook => cs.outlook
  | .gmail => cs.gmail
  | .appleMail => cs.appleMail
  | .thunderbird => cs.thunderbird
  | .mobile => cs.mobile

def only (cs : List Client) : Clients :=
  ⟨cs.contains .outlook, cs.contains .gmail, cs.contains .appleMail, cs.contains .thunderbird,
    cs.contains .mobile⟩

def toList (cs : Clients) : List Client := Client.all.filter cs.has

end Clients
end MailMarkup
