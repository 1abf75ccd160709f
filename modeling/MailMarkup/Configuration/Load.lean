import MailMarkup.Configuration.Data
import MailMarkup.Configuration.Environment
import MailMarkup.Data.Toml.Document
import MailMarkup.Files.Tree

/-!
# Configuration files

A file is read as its extension says. One without an extension is tried as TOML and then as JSON.
-/
namespace MailMarkup

namespace Configuration

def ofToml? (t : Text) : Option Configuration := (Toml.read? t).bind (decode .toml)

def ofJson? (t : Text) : Option Configuration := (Json.read? t).bind (decode .json)

def orError {α : Type} (e : SettingsError) : Option α → Except SettingsError α
  | some a => .ok a
  | none => .error e

def read (extension : Option Text) (t : Text) : Except SettingsError Configuration :=
  match extension with
  | none => orError .json ((ofToml? t).or (ofJson? t))
  | some x =>
    let name := String.ofList x
    if name = "toml" then orError .toml (ofToml? t)
    else if name = "json" then orError .json (ofJson? t)
    else .error (.unsupportedFormat name)

def load (files : FileTree) (p : Path) : Except SettingsError Configuration :=
  match files.read p with
  | .error f => .error (.io f)
  | .ok content =>
    match Text.ofBytes? content with
    | none => .error (.io .notText)
    | some t => read p.extension? t

def fileNames : List String := [
  "validate-email-html.toml", "validate-email-html.json",
  ".validate-email-html.toml", ".validate-email-html.json"]

def userDirectory? (env : Environment) : Option Path :=
  let absolute (s : String) : Option Path :=
    let p := Path.ofString s
    if p.isAbsolute then some p else none
  ((env.get? "XDG_CONFIG_HOME").bind absolute).or <|
    match env.get? "HOME" with
    | some home =>
      if home.isEmpty then none else some ((Path.ofString home).join (.ofString ".config"))
    | none => none

/-- The places where a configuration file is looked for, in order. -/
def candidates (env : Environment) : List Path :=
  fileNames.map Path.ofString ++
    match userDirectory? env with
    | some dir =>
      let own := dir.join (.ofString "validate-email-html")
      fileNames.map fun n => own.join (.ofString n)
    | none => []

def find (env : Environment) (files : FileTree) : Except SettingsError (Option Configuration) :=
  match (candidates env).find? files.exists_ with
  | some p => (load files p).map some
  | none => .ok none

end Configuration
end MailMarkup
