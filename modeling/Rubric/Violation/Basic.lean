import Rubric.Grammar.Tree
import Rubric.Submission.Kind

/-!
Violations: evidence that one rule was broken, with the text at fault. A finding adds where it
was found, and a diagnostic what is shown about it.
-/
namespace Rubric

namespace Violation

/-- Kinds of violations, in the order in which they are reported. -/
inductive Tag where
  | missingExpectedFunction
  | disallowedDeclarations
  | disallowedReassignment
  | disallowedLoops
  | disallowedIfStatements
  | disallowedImport
  | disallowedConsole
  | disallowedHelperFunctions
deriving Repr, DecidableEq

namespace Tag

def all : List Tag :=
  [missingExpectedFunction, disallowedDeclarations, disallowedReassignment, disallowedLoops,
    disallowedIfStatements, disallowedImport, disallowedConsole, disallowedHelperFunctions]

def name : Tag → String
  | missingExpectedFunction => "MissingExpectedFunction"
  | disallowedDeclarations => "DisallowedDeclarations"
  | disallowedReassignment => "DisallowedReassignment"
  | disallowedLoops => "DisallowedLoops"
  | disallowedIfStatements => "DisallowedIfStatements"
  | disallowedImport => "DisallowedImport"
  | disallowedConsole => "DisallowedConsole"
  | disallowedHelperFunctions => "DisallowedHelperFunctions"

def ofName? (text : String) : Option Tag := all.find? fun tag => tag.name == text

end Tag

end Violation

inductive Violation where
  | missingFunctions (missing : List String)
  | declaration (kind : DeclarationKind) (code : String)
  | reassignment (code : String)
  | loop (code : String)
  | ifStatement (code : String)
  | importRefused (module : String) (code : String)
  | console (code : String)
  | helperFunction (code : String)
deriving Repr, DecidableEq

namespace Violation

/-- There is nothing to report when no function is missing. -/
def missingFunctions? (missing : List String) : Option Violation :=
  if missing.isEmpty then none else some (missingFunctions missing)

def tag : Violation → Tag
  | missingFunctions _ => .missingExpectedFunction
  | declaration _ _ => .disallowedDeclarations
  | reassignment _ => .disallowedReassignment
  | loop _ => .disallowedLoops
  | ifStatement _ => .disallowedIfStatements
  | importRefused _ _ => .disallowedImport
  | console _ => .disallowedConsole
  | helperFunction _ => .disallowedHelperFunctions

/-- The text at fault, if the violation points at text. -/
def code? : Violation → Option String
  | missingFunctions _ => none
  | declaration _ code => some code
  | reassignment code => some code
  | loop code => some code
  | ifStatement code => some code
  | importRefused _ code => some code
  | console code => some code
  | helperFunction code => some code

def help : Violation → String
  | missingFunctions _ => "define each missing function at the top level of the file"
  | declaration _ _ => "use one of the declaration kinds allowed by the exercise"
  | reassignment _ => "compute a new value and bind it to a new name instead"
  | loop _ => "use array methods or recursion instead of a loop"
  | ifStatement _ => "use a conditional expression instead"
  | importRefused _ _ => "only import modules listed in allowedImports"
  | console _ => "return values instead of printing them"
  | helperFunction _ => "inline the helper into one of the expected functions"

def message : Violation → String
  | missingFunctions missing => "missing expected function(s): " ++ ", ".intercalate missing
  | declaration kind _ => "`" ++ kind.keyword ++ "` declarations are not allowed"
  | reassignment _ => "reassignment is not allowed"
  | loop _ => "loops are not allowed"
  | ifStatement _ => "if statements are not allowed"
  | importRefused module _ => "import from `" ++ module ++ "` is not allowed"
  | console _ => "console is not allowed"
  | helperFunction _ => "helper functions are not allowed"

def taggedMessage (violation : Violation) : String :=
  "[" ++ violation.tag.name ++ "] " ++ violation.message

end Violation

/-- A violation and where it was found; one about the whole file has no place. -/
structure Finding where
  violation : Violation
  span : Option Span
deriving Repr, DecidableEq

def Finding.at (violation : Violation) (span : Span) : Finding := ⟨violation, some span⟩

def Finding.wholeFile (violation : Violation) : Finding := ⟨violation, none⟩

/-- A marked range of a submission. -/
structure Mark where
  offset : Nat
  length : Nat
  text : String
deriving Repr, DecidableEq

/-- What is shown about a finding in a named submission. -/
structure Diagnostic where
  message : String
  help : String
  name : String
  source : String
  labels : List Mark
deriving Repr, DecidableEq

def Finding.diagnostic (finding : Finding) (name source : String) : Diagnostic where
  message := finding.violation.taggedMessage
  help := finding.violation.help
  name := name
  source := source
  labels :=
    match finding.span with
    | some span => [⟨span.start, span.length, finding.violation.tag.name⟩]
    | none => []

end Rubric
