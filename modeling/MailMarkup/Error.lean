import MailMarkup.Rule.Task

/-!
# Errors

Bad markup is never an error. These are the ways in which settings, files or an engine that has been
disposed of keep the library from doing its work.
-/
namespace MailMarkup

/-- What a file system says when it refuses. -/
inductive FileFault where
  | notFound | exists_ | notDirectory | isDirectory | nameTooLong | tooManyLinks
  | zeroInName | notText
  deriving DecidableEq, Repr

def FileFault.message : FileFault → String
  | .notFound => "No such file or directory (os error 2)"
  | .exists_ => "File exists (os error 17)"
  | .notDirectory => "Not a directory (os error 20)"
  | .isDirectory => "Is a directory (os error 21)"
  | .nameTooLong => "File name too long (os error 36)"
  | .tooManyLinks => "Too many levels of symbolic links (os error 40)"
  | .zeroInName => "file name contained an unexpected NUL byte"
  | .notText => "stream did not contain valid UTF-8"

inductive SettingsError where
  | io (f : FileFault)
  | toml
  | json
  | invalid (message : String)
  | environment (message : String)
  | unsupportedFormat (extension : String)
  deriving DecidableEq, Repr

def SettingsError.message : SettingsError → String
  | .io f => "IO error: " ++ f.message
  | .toml => "TOML parsing error"
  | .json => "JSON parsing error"
  | .invalid m => "Configuration validation error: " ++ m
  | .environment m => "Environment variable error: " ++ m
  | .unsupportedFormat e => "Unsupported configuration file format: " ++ e

inductive EngineError where
  | disposed
  | settings (e : SettingsError)
  | rule (f : Failure)
  | unknownRule (name : String)
  | io (f : FileFault)
  | fileTooLarge (path : String) (size limit : Nat)
  | invalidEncoding (path : String)
  | discovery (path : String) (f : FileFault)
  deriving DecidableEq, Repr

def EngineError.message : EngineError → String
  | .disposed => "Engine has been disposed"
  | .settings e => "Configuration error: " ++ e.message
  | .rule f => "Rule error: " ++ f.message
  | .unknownRule name => "Unknown rule: " ++ name
  | .io f => "IO error: " ++ f.message
  | .fileTooLarge path size limit =>
    "File too large: " ++ path ++ " is " ++ toString size ++ " bytes (limit " ++
      toString limit ++ " bytes)"
  | .invalidEncoding path => "Invalid encoding: " ++ path ++ " is not valid UTF-8"
  | .discovery path f => "File discovery error: " ++ path ++ " - " ++ f.message

end MailMarkup
