import MailMarkup.Configuration.Basic
import MailMarkup.Files.Tree

/-!
# Arguments of the program
-/
namespace MailMarkup

structure Arguments where
  paths : List Path := []
  config : Option Path := none
  format : Option Format := none
  verbose : Bool := false
  quiet : Bool := false
  strict : Bool := false
  fix : Bool := false
  outDir : Option Path := none
  compat : Bool := false
  threads : Option Nat := none
  extensions : Option Text := none
  included : List Text := []
  excluded : List Text := []
  maxHtmlSize : Option Nat := none
  clients : Option Text := none
  disabledRules : List Text := []
  deriving DecidableEq, Repr, Inhabited

namespace Arguments

def extensionList (a : Arguments) : Option (List Text) :=
  a.extensions.map fun t =>
    ((Text.splitOn ',' t).map fun x => (Text.trim x).dropWhile (· == '.')).filter (!·.isEmpty)

def clientList (a : Arguments) : Except String (Option (List Client)) :=
  match a.clients with
  | none => .ok none
  | some t => (Client.parseList t).map some

def verbosity (a : Arguments) : Verbosity := .ofFlags a.quiet a.verbose

def check (a : Arguments) (files : FileTree) : Except String Unit :=
  match a.paths.find? fun p => !files.exists_ p with
  | some p => .error ("Path does not exist: " ++ p.display)
  | none =>
    if a.threads = some 0 then .error "Number of threads must be greater than 0"
    else a.clientList.map fun _ => ()

def configure (a : Arguments) (c : Configuration) : Except SettingsError Configuration :=
  match a.clientList with
  | .error m => .error (.invalid m)
  | .ok clients =>
    .ok {
      engine := { c.engine with
        strict := c.engine.strict || a.strict
        maxHtmlSize := a.maxHtmlSize.getD c.engine.maxHtmlSize
        clients := (clients.map Clients.only).getD c.engine.clients
        rules := a.disabledRules.foldl (fun rules name =>
          rules.modify (String.ofList name) fun s => { s with enabled := some false })
          c.engine.rules }
      run := { threads := a.threads.or c.run.threads, fix := c.run.fix || a.fix }
      output := {
        format := a.format.getD c.output.format
        verbose := !a.quiet && (a.verbose || c.output.verbose)
        quiet := a.quiet || (!a.verbose && c.output.quiet) }
      files := {
        extensions := (a.extensionList.map (·.map String.ofList)).getD c.files.extensions
        included :=
          if a.included.isEmpty then c.files.included else a.included.map String.ofList
        excluded :=
          if a.excluded.isEmpty then c.files.excluded else a.excluded.map String.ofList } }

end Arguments
end MailMarkup
