import MailMarkup.Batch.Rendering
import MailMarkup.Batch.Run
import MailMarkup.CommandLine.Reader
import MailMarkup.Configuration.Load
import MailMarkup.Files.Discovery

/-!
# The program

From a command line, an environment and a file tree to what is printed, the exit code and the file
tree that is left. A file comes before the environment and the environment before the command line:
what is said later wins.
-/
namespace MailMarkup

namespace SettingsError

/-- The message of an error and of what caused it. -/
def chain : SettingsError → List String
  | .io f => [(io f).message, f.message]
  | .toml => [toml.message, "The file is not a TOML document of the expected form"]
  | .json => [json.message, "The file is not a JSON value of the expected form"]
  | e => [e.message]

end SettingsError

namespace EngineError

def chain : EngineError → List String
  | .settings e => (settings e).message :: e.chain
  | .rule f => [(rule f).message, f.message]
  | .io f => [(io f).message, f.message]
  | e => [e.message]

end EngineError

namespace Program

def name : String := "validate-email-html"

def version : String := name ++ " 0.2.0\n"

def usage : String :=
  "Usage: " ++ name ++ " [OPTIONS] <PATHS>...\n\nOptions:\n" ++
    String.join (Switch.all.map fun s =>
      "  " ++ (match s.short? with
        | some c => "-" ++ c.toString ++ ", "
        | none => "    ") ++ "--" ++ s.long ++ (if s.takesValue then " <VALUE>" else "") ++ "\n")

/-- What keeps the program from checking any file. -/
inductive Failure where
  | arguments (message : String)
  | configuration (e : SettingsError)
  | files (e : EngineError)
  | engine (e : EngineError)
  deriving DecidableEq, Repr

namespace Failure

def chain : Failure → List String
  | .arguments m => [m]
  | .configuration e => "Failed to load configuration" :: e.chain
  | .files e => e.chain
  | .engine e => "Invalid engine configuration" :: e.chain

def hang (margin : String) (s : String) : String :=
  String.ofList (Text.replaceChar '\n' ('\n' :: margin.toList) s.toList)

/-- The causes of a failure, numbered if there is more than one. -/
def causes : List String → String
  | [] => ""
  | [m] => "\n\nCaused by:\n    " ++ hang "    " m
  | ms =>
    "\n\nCaused by:" ++ String.join (ms.zipIdx.map fun (m, i) =>
      let number := toString i
      "\n" ++ "".pushn ' ' (5 - number.length) ++ number ++ ": " ++ hang "       " m)

def report (f : Failure) : String :=
  match f.chain with
  | [] => ""
  | m :: ms => "Error: " ++ m ++ causes ms ++ "\n"

end Failure

def configure (env : Environment) (files : FileTree) (a : Arguments) :
    Except SettingsError Configuration := do
  let found ← match a.config with
    | some p => (Configuration.load files p).map some
    | none => Configuration.find env files
  let c := match found with
    | some c => ({} : Configuration).merge c
    | none => {}
  let c ← env.configure c
  let c ← a.configure c
  c.check
  return c

def filter (o : FileOptions) : Except SettingsError FileFilter := do
  let f := ({} : FileFilter).withExtensions (o.extensions.map String.toList)
  let f ← f.withIncluded (o.included.map String.toList)
  f.withExcluded (o.excluded.map String.toList)

/-- The files to check, and how. -/
structure Job where
  engine : Engine
  files : List Path
  options : BatchOptions
  output : OutputOptions

def prepare (env : Environment) (files : FileTree) (a : Arguments) : Except Failure Job := do
  (a.check files).mapError .arguments
  let c ← (configure env files a).mapError .configuration
  let f ← (filter c.files).mapError fun e => .files (.settings e)
  let found ← (files.discoverAll f a.paths).mapError .files
  let engine ← (Engine.new c.engine).mapError .engine
  return {
    engine, files := found, output := c.output
    options := { fix := c.run.fix, outDir := a.outDir, compat := a.compat } }

/-- The paths that the program may look at before it checks any file, or write below. -/
def wanted (env : Environment) (a : Arguments) : List Path :=
  (match a.config with
    | some p => [p]
    | none => Configuration.candidates env) ++ a.outDir.toList ++ a.paths

def terminated (s : String) : String := if s.toList.getLast? == some '\n' then s else s ++ "\n"

/-- What is printed in the end, and whether every file is valid. -/
def Job.conclude (j : Job) (colors : Bool) (time : Duration → String) (results : List FileResult) :
    String × Bool :=
  let b := BatchSummary.ofResults results
  let r : Rendering := { format := j.output.format, verbosity := j.output.verbosity, colors, time }
  (terminated (r.render b), !b.hasErrors)

inductive Ending where
  /-- The command line asks for something else, or for nothing that makes sense. -/
  | usage (e : UsageError)
  | failed (f : Failure)
  | finished (output : String) (success : Bool)

def Ending.code : Ending → Nat
  | .usage .help => 0
  | .usage .version => 0
  | .usage _ => 2
  | .failed _ => 1
  | .finished _ success => if success then 0 else 1

/-- Runs the program. Times are written by `time`; the files take none. -/
def run (env : Environment) (files : FileTree) (time : Duration → String) (words : List Text) :
    Ending × FileTree :=
  match CommandLine.read words with
  | .error e => (.usage e, files)
  | .ok a =>
    match prepare env files a with
    | .error f => (.failed f, files)
    | .ok j =>
      let (results, w) := Batch.run j.options j.files { engine := j.engine, files }
      let (output, success) := j.conclude false time results
      (.finished output success, w.files)

end Program
end MailMarkup
