import MailMarkup.Text.Basic

/-!
# Faults in the source of a pattern
-/
namespace MailMarkup.Pattern

inductive Fault where
  | unclosedGroup | unopenedGroup | lookAround | emptyName | badName | unclosedName | repeatedName
  | unknownFlag | repeatedFlag | repeatedNegation | danglingNegation | unclosedFlags
  | nothingToRepeat | unclosedCount | missingCount | badCount | reversedCount
  | unclosedSet | reversedRange | rangeOfClass | edgeInSet
  | trailingEscape | unknownEscape | backreference | emptyHex | badHexDigit | badHex
  | badProperty | unknownProperty | unknownValue
  | unclosedWordEdge | unknownWordEdge | unclosedWordEdgeOrCount
  | notInAscii | badEncoding | tooDeep | tooLarge
  deriving DecidableEq, Repr

def nestLimit : Nat := 250

def sizeLimit : Nat := 10485760

def Fault.message : Fault → String
  | .unclosedGroup => "unclosed group"
  | .unopenedGroup => "unopened group"
  | .lookAround => "look-around, including look-ahead and look-behind, is not supported"
  | .emptyName => "empty capture group name"
  | .badName => "invalid capture group character"
  | .unclosedName => "unclosed capture group name"
  | .repeatedName => "duplicate capture group name"
  | .unknownFlag => "unrecognized flag"
  | .repeatedFlag => "duplicate flag"
  | .repeatedNegation => "flag negation operator repeated"
  | .danglingNegation => "dangling flag negation operator"
  | .unclosedFlags => "expected flag but got end of regex"
  | .nothingToRepeat => "repetition operator missing expression"
  | .unclosedCount => "unclosed counted repetition"
  | .missingCount => "repetition quantifier expects a valid decimal"
  | .badCount => "decimal literal invalid"
  | .reversedCount => "invalid repetition count range, the start must be <= the end"
  | .unclosedSet => "unclosed character class"
  | .reversedRange => "invalid character class range, the start must be <= the end"
  | .rangeOfClass => "invalid range boundary, must be a literal"
  | .edgeInSet => "invalid escape sequence found in character class"
  | .trailingEscape => "incomplete escape sequence, reached end of pattern prematurely"
  | .unknownEscape => "unrecognized escape sequence"
  | .backreference => "backreferences are not supported"
  | .emptyHex => "hexadecimal literal empty"
  | .badHexDigit => "invalid hexadecimal digit"
  | .badHex => "hexadecimal literal is not a Unicode scalar value"
  | .badProperty => "invalid Unicode character class"
  | .unknownProperty => "Unicode property not found"
  | .unknownValue => "Unicode property value not found"
  | .unclosedWordEdge =>
    "special word boundary assertion is either unclosed or contains an invalid character"
  | .unknownWordEdge =>
    "unrecognized special word boundary assertion, valid choices are: start, end, start-half " ++
      "or end-half"
  | .unclosedWordEdgeOrCount =>
    "found either the beginning of a special word boundary or a bounded repetition on a \\b " ++
      "with an opening brace, but no closing brace"
  | .notInAscii => "Unicode not allowed here"
  | .badEncoding => "pattern can match invalid UTF-8"
  | .tooDeep =>
    "exceed the maximum number of nested parentheses/brackets (" ++ toString nestLimit ++ ")"
  | .tooLarge => "Compiled regex exceeds size limit of " ++ toString sizeLimit ++ " bytes."

/-- What is wrong, and at which characters. -/
structure SourceError where
  fault : Fault
  place : Nat
  width : Nat := 1
  deriving DecidableEq, Repr

/-- The pattern with the fault underlined, unless the pattern as a whole is at fault. -/
def SourceError.message (source : String) (e : SourceError) : String :=
  if e.fault = .tooLarge then e.fault.message
  else
    "regex parse error:\n    " ++ source ++ "\n    " ++ "".pushn ' ' e.place ++
      "".pushn '^' (max 1 e.width) ++ "\nerror: " ++ e.fault.message

end MailMarkup.Pattern
