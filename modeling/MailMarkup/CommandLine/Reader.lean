import MailMarkup.CommandLine.Arguments
import MailMarkup.Decimal.Read

/-!
# Reading a command line

Long options take a value after an equals sign or as the next word, short ones also without anything
between, and short flags may be written together. A single dash is an ordinary word; after a double
dash every word is. Words are dealt with one by one, and a value is only judged when the next
option, a path or the end comes.
-/
namespace MailMarkup

/-- The ways in which a command line ends before the program does its work. -/
inductive UsageError where
  | help | version
  | missingRequired | invalidValue | valueValidation | unknownArgument | conflict | tooManyValues
  deriving DecidableEq, Repr

def UsageError.message : UsageError → String
  | .help | .version => ""
  | .missingRequired => "a required argument is missing"
  | .invalidValue => "a value is missing or is not one of those allowed"
  | .valueValidation => "a value is not a number"
  | .unknownArgument => "an option is not known"
  | .conflict => "an option is given twice or does not go with another"
  | .tooManyValues => "a flag is given a value"

inductive Switch where
  | config | format | verbose | quiet | strict | fix | outDir | compat | threads | extensions
  | include_ | exclude_ | maxHtmlSize | clients | disableRule | help | version
  deriving DecidableEq, Repr

namespace Switch

def all : List Switch := [
  .config, .format, .verbose, .quiet, .strict, .fix, .outDir, .compat, .threads, .extensions,
  .include_, .exclude_, .maxHtmlSize, .clients, .disableRule, .help, .version]

def long : Switch → String
  | .config => "config"
  | .format => "format"
  | .verbose => "verbose"
  | .quiet => "quiet"
  | .strict => "strict"
  | .fix => "fix"
  | .outDir => "out-dir"
  | .compat => "compat"
  | .threads => "threads"
  | .extensions => "extensions"
  | .include_ => "include"
  | .exclude_ => "exclude"
  | .maxHtmlSize => "max-html-size"
  | .clients => "clients"
  | .disableRule => "disable-rule"
  | .help => "help"
  | .version => "version"

def short? : Switch → Option Char
  | .config => some 'c'
  | .format => some 'f'
  | .verbose => some 'v'
  | .quiet => some 'q'
  | .threads => some 't'
  | .extensions => some 'e'
  | .help => some 'h'
  | .version => some 'V'
  | _ => none

def takesValue : Switch → Bool
  | .verbose | .quiet | .strict | .fix | .compat | .help | .version => false
  | _ => true

/-- Whether a switch may be given more than once. -/
def repeats : Switch → Bool
  | .include_ | .exclude_ | .disableRule => true
  | _ => false

def ofLong? (name : Text) : Option Switch := all.find? (·.long.toList == name)

def ofShort? (c : Char) : Option Switch := all.find? (·.short? == some c)

end Switch

namespace CommandLine

/-- Words that have been taken in but not judged yet. -/
inductive Pending where
  | nothing
  /-- A switch that waits for its value. -/
  | waiting (s : Switch)
  | value (s : Switch) (v : Text)
  /-- Paths, last first. -/
  | paths (ps : List Text)

structure Reading where
  arguments : Arguments := {}
  given : List Switch := []
  pending : Pending := .nothing
  /-- After a double dash. -/
  pathsOnly : Bool := false

namespace Reading

def path? (v : Text) : Except UsageError Path := if v.isEmpty then .error .invalidValue else .ok ⟨v⟩

def number? (v : Text) : Except UsageError Nat :=
  match Decimal.word? 64 v with
  | some n => .ok n
  | none => .error .valueValidation

def format? (v : Text) : Except UsageError Format :=
  match Format.ofName? (String.ofList v) with
  | some f => .ok f
  | none => .error .invalidValue

def set (a : Arguments) (s : Switch) (v : Text) : Except UsageError Arguments :=
  match s with
  | .config => (path? v).map fun p => { a with config := some p }
  | .format => (format? v).map fun f => { a with format := some f }
  | .outDir => (path? v).map fun p => { a with outDir := some p }
  | .threads => (number? v).map fun n => { a with threads := some n }
  | .extensions => .ok { a with extensions := some v }
  | .include_ => .ok { a with included := a.included ++ [v] }
  | .exclude_ => .ok { a with excluded := a.excluded ++ [v] }
  | .maxHtmlSize => (number? v).map fun n => { a with maxHtmlSize := some n }
  | .clients => .ok { a with clients := some v }
  | .disableRule => .ok { a with disabledRules := a.disabledRules ++ [v] }
  | .verbose => .ok { a with verbose := true }
  | .quiet => .ok { a with quiet := true }
  | .strict => .ok { a with strict := true }
  | .fix => .ok { a with fix := true }
  | .compat => .ok { a with compat := true }
  | .help => .error .help
  | .version => .error .version

/-- Takes a switch with its value, unless it was given before and may not be again. -/
def accept (r : Reading) (s : Switch) (v : Text) : Except UsageError Reading :=
  if !s.repeats && r.given.contains s then .error .conflict
  else (set r.arguments s v).map fun a => { r with arguments := a, given := s :: r.given }

def settle (r : Reading) : Except UsageError Reading :=
  let r' := { r with pending := .nothing }
  match r.pending with
  | .nothing => .ok r
  | .waiting _ => .error .invalidValue
  | .value s v => r'.accept s v
  | .paths ps =>
    (ps.reverse.mapM path?).map fun ps =>
      { r' with arguments := { r.arguments with paths := r.arguments.paths ++ ps } }

def take (r : Reading) (s : Switch) (v : Text) : Except UsageError Reading :=
  r.settle.bind (·.accept s v)

def await (r : Reading) (s : Switch) : Except UsageError Reading :=
  r.settle.map fun r => { r with pending := .waiting s }

def long (r : Reading) (word : Text) : Except UsageError Reading :=
  let (name, value?) := match Text.cut? ['='] word with
    | some (name, v) => (name, some v)
    | none => (word, none)
  match Switch.ofLong? name with
  | none => .error .unknownArgument
  | some s =>
    match s.takesValue, value? with
    | true, some v => r.take s v
    | true, none => r.await s
    | false, some _ => .error .tooManyValues
    | false, none => r.take s []

/-- Short switches written together; the first that takes a value takes the rest. -/
def short (r : Reading) : Text → Except UsageError Reading
  | [] => .ok r
  | c :: rest =>
    match Switch.ofShort? c with
    | none => .error .unknownArgument
    | some s =>
      if s.takesValue then
        match rest with
        | [] => r.await s
        | '=' :: v => r.take s v
        | v => r.take s v
      else (r.take s []).bind (·.short rest)

def path (r : Reading) (word : Text) : Except UsageError Reading :=
  match r.pending with
  | .paths ps => .ok { r with pending := .paths (word :: ps) }
  | _ => r.settle.map fun r => { r with pending := .paths [word] }

def ordinary (r : Reading) (word : Text) : Except UsageError Reading :=
  match r.pending with
  | .waiting s => .ok { r with pending := .value s word }
  | _ => r.path word

def step (r : Reading) (word : Text) : Except UsageError Reading :=
  if r.pathsOnly then r.path word
  else
    match word with
    | ['-', '-'] => .ok { r with pathsOnly := true }
    | '-' :: '-' :: w => r.long w
    | '-' :: c :: w => r.short (c :: w)
    | _ => r.ordinary word

def finish (r : Reading) : Except UsageError Arguments :=
  r.settle.bind fun r =>
    let a := r.arguments
    if a.verbose && a.quiet then .error .conflict
    else if a.paths.isEmpty || (a.outDir.isSome && !a.fix) then .error .missingRequired
    else .ok a

end Reading

def read (words : List Text) : Except UsageError Arguments :=
  (words.foldlM Reading.step {}).bind Reading.finish

end CommandLine
end MailMarkup
