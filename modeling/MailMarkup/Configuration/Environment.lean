import MailMarkup.Configuration.Basic
import MailMarkup.Decimal.Read

/-!
# Configuration from the environment

Variables change a configuration one after another, in a set order. The first one whose value makes
no sense is reported.
-/
namespace MailMarkup

abbrev Environment := List (String × String)

namespace Environment

def get? (env : Environment) (name : String) : Option String := env.lookup name

def refusal (name value : String) : SettingsError :=
  .environment ("Invalid " ++ name ++ " value: " ++ value)

def number? (t : Text) : Option Nat := Decimal.word? 64 (Text.trim t)

def flag? (t : Text) : Option Bool :=
  let s := String.ofList (Text.lower (Text.trim t))
  if ["1", "true", "yes", "on"].contains s then some true
  else if ["0", "false", "no", "off"].contains s then some false
  else none

def format? (t : Text) : Option Format := Format.ofName? (String.ofList (Text.lower t))

/-- A variable, what reads its value, and what it changes. -/
structure Variable where
  name : String
  apply : Text → Configuration → Except SettingsError Configuration

namespace Variable

def reading {α : Type} (name : String) (read : Text → Option α)
    (set : α → Configuration → Configuration) : Variable where
  name := name
  apply t c :=
    match read t with
    | some a => .ok (set a c)
    | none => .error (refusal name (String.ofList t))

/-- The clients meant; a name that is not known is itself reported. -/
def clients (name : String) : Variable where
  name := name
  apply t c :=
    match Client.parseList t with
    | .ok cs => .ok { c with engine := { c.engine with clients := .only cs } }
    | .error m => .error (refusal name m)

def onEngine {α : Type} (name : String) (read : Text → Option α) (set : α → Settings → Settings) :
    Variable :=
  reading name read fun a c => { c with engine := set a c.engine }

def all : List Variable := [
  onEngine "EMAIL_HTML_MAX_SIZE" number? fun n s => { s with maxHtmlSize := n },
  onEngine "EMAIL_HTML_MAX_FILE_SIZE" number? fun n s => { s with maxFileSize := n },
  onEngine "EMAIL_HTML_STRICT" flag? fun b s => { s with strict := b },
  clients "EMAIL_HTML_CLIENTS",
  onEngine "EMAIL_HTML_CHECK_ACCESSIBILITY" flag? fun b s => { s with accessibility := b },
  onEngine "EMAIL_HTML_CHECK_PERFORMANCE" flag? fun b s => { s with performance := b },
  onEngine "EMAIL_HTML_CHECK_BEST_PRACTICES" flag? fun b s => { s with bestPractices := b },
  reading "EMAIL_HTML_THREADS" number? fun n c =>
    { c with run := { c.run with threads := some n } },
  reading "EMAIL_HTML_FORMAT" format? fun f c => { c with output := { c.output with format := f } }]

end Variable

def names : List String := Variable.all.map (·.name) ++ ["XDG_CONFIG_HOME", "HOME"]

def configure (env : Environment) (c : Configuration) : Except SettingsError Configuration :=
  Variable.all.foldlM (fun c v =>
    match env.get? v.name with
    | some value => v.apply value.toList c
    | none => .ok c) c

end Environment
end MailMarkup
