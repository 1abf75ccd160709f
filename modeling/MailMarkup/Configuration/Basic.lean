import MailMarkup.Error
import MailMarkup.Settings.Data

/-!
# Configuration of a run

Besides the settings of the engine a run needs to know how many files to work on at once, how to
present what it found, and which files to look at.
-/
namespace MailMarkup

inductive Format where
  | human | json | summary
  deriving DecidableEq, Repr, Inhabited

namespace Format

def all : List Format := [.human, .json, .summary]

def name : Format → String
  | .human => "human"
  | .json => "json"
  | .summary => "summary"

def ofName? (s : String) : Option Format := all.find? (·.name == s)

def decode : Decoder Format := Decode.choice (all.map fun f => (f.name, f))

end Format

inductive Verbosity where
  | quiet | normal | verbose
  deriving DecidableEq, Repr, Inhabited

namespace Verbosity

def all : List Verbosity := [.quiet, .normal, .verbose]

def name : Verbosity → String
  | .quiet => "Quiet"
  | .normal => "Normal"
  | .verbose => "Verbose"

def decode : Decoder Verbosity := Decode.choice (all.map fun v => (v.name, v))

def ofFlags (quiet verbose : Bool) : Verbosity :=
  if quiet then .quiet else if verbose then .verbose else .normal

end Verbosity

structure RunOptions where
  threads : Option Nat := none
  fix : Bool := false
  deriving DecidableEq, Repr, Inhabited

structure OutputOptions where
  format : Format := .human
  verbose : Bool := false
  quiet : Bool := false
  deriving DecidableEq, Repr, Inhabited

def OutputOptions.verbosity (o : OutputOptions) : Verbosity := .ofFlags o.quiet o.verbose

structure FileOptions where
  extensions : List String := ["html", "htm"]
  included : List String := []
  excluded : List String := []
  deriving DecidableEq, Repr, Inhabited

structure Configuration where
  engine : Settings := {}
  run : RunOptions := {}
  output : OutputOptions := {}
  files : FileOptions := {}
  deriving Inhabited

namespace FileOptions

def merge (base added : FileOptions) : FileOptions where
  extensions := if added.extensions.isEmpty then base.extensions else added.extensions
  included := if added.included.isEmpty then base.included else added.included
  excluded := if added.excluded.isEmpty then base.excluded else added.excluded

def fault? (o : FileOptions) : Option String :=
  if o.extensions.isEmpty then some "At least one file extension must be specified"
  else
    (o.extensions.find? fun x => x.toList.any fun c => c == '/' || c == '\\' || c == '.').map
      ("Invalid file extension: " ++ ·)

end FileOptions

namespace Configuration

/-- The second configuration over the first. Lists that are empty and a number of threads that is
not given leave what there was. -/
def merge (base added : Configuration) : Configuration where
  engine := added.engine
  run := { threads := added.run.threads.or base.run.threads, fix := added.run.fix }
  output := added.output
  files := base.files.merge added.files

def threadFault? : Option Nat → Option String
  | none => none
  | some n =>
    if n = 0 then some "Number of threads must be greater than 0"
    else if 1000 < n then some "Number of threads cannot exceed 1000"
    else none

def fault? (c : Configuration) : Option String :=
  c.engine.fault?.or <| (threadFault? c.run.threads).or <|
    if c.output.verbose && c.output.quiet then some "Cannot enable both verbose and quiet modes"
    else c.files.fault?

def check (c : Configuration) : Except SettingsError Unit :=
  match c.fault? with
  | some m => .error (.invalid m)
  | none => .ok ()

end Configuration
end MailMarkup
