import Rubric.Detector.Checks

/-!
The built-in detectors: each names a check and says when rules ask for it.
-/
namespace Rubric

inductive Detector where
  | expectedFunctions
  | validDeclarations
  | noReassignment
  | noLoops
  | noIfStatements
  | noConsole
  | noHelperFunctions
  | allowedImports
deriving Repr, DecidableEq

namespace Detector

/-- All detectors, in the order in which they report. -/
def all : List Detector :=
  [expectedFunctions, validDeclarations, noReassignment, noLoops, noIfStatements, noConsole,
    noHelperFunctions, allowedImports]

def code : Detector → String
  | expectedFunctions => "RE001"
  | validDeclarations => "RE002"
  | noReassignment => "RE003"
  | noLoops => "RE004"
  | noIfStatements => "RE005"
  | noConsole => "RE006"
  | noHelperFunctions => "RE007"
  | allowedImports => "RE008"

def name : Detector → String
  | expectedFunctions => "expected-functions"
  | validDeclarations => "valid-declarations"
  | noReassignment => "no-reassignment"
  | noLoops => "no-loops"
  | noIfStatements => "no-if-statements"
  | noConsole => "no-console"
  | noHelperFunctions => "no-helper-functions"
  | allowedImports => "allowed-imports"

def description : Detector → String
  | expectedFunctions => "Requires every expected function to be defined at the top level"
  | validDeclarations => "Forbids const/let/var declarations not listed in validDeclarations"
  | noReassignment => "Forbids assignments, compound assignments and ++/-- after declaration"
  | noLoops => "Forbids for, for..of, while and do..while loops"
  | noIfStatements => "Forbids if statements"
  | noConsole => "Forbids references to console"
  | noHelperFunctions => "Forbids named functions not listed in expectedFunctions"
  | allowedImports => "Forbids imports of modules or names not in allowedImports"

def applies (rules : Rules) : Detector → Bool
  | expectedFunctions =>
      match rules.expectedFunctions with
      | some names => !names.isEmpty
      | none => false
  | validDeclarations => rules.validDeclarations.isSome
  | noReassignment => rules.disallows .reassignment
  | noLoops => rules.disallows .loops
  | noIfStatements => rules.disallows .ifStatements
  | noConsole => rules.disallows .console
  | noHelperFunctions => rules.expectedFunctions.isSome && rules.disallows .helperFunctions
  | allowedImports => rules.allowedImports.isSome

def detect (submission : Submission) (rules : Rules) : Detector → List Finding
  | expectedFunctions => Check.expectedFunctions submission rules
  | validDeclarations => Check.validDeclarations submission rules
  | noReassignment => Check.noReassignment submission rules
  | noLoops => Check.noLoops submission rules
  | noIfStatements => Check.noIfStatements submission rules
  | noConsole => Check.noConsole submission rules
  | noHelperFunctions => Check.noHelperFunctions submission rules
  | allowedImports => Check.allowedImports submission rules

/-- Letters of the ASCII range count as equal in both cases. -/
def equalIgnoringCase (left right : String) : Bool :=
  left.toList.map Char.toLower == right.toList.map Char.toLower

/-- Looks a detector up by its name, or by its code in either case. -/
def find? (text : String) : Option Detector :=
  all.find? fun detector => detector.name == text || equalIgnoringCase detector.code text

end Detector

end Rubric
