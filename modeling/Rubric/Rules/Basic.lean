import Rubric.Submission.Kind

/-!
The rules a submission is checked against. Every part is optional, and an absent part imposes
nothing; an empty list is not the same as an absent one.
-/
namespace Rubric

inductive Construct where
  | reassignment
  | loops
  | ifStatements
  | console
  | helperFunctions
deriving Repr, DecidableEq

namespace Construct

def all : List Construct := [reassignment, loops, ifStatements, console, helperFunctions]

def name : Construct → String
  | reassignment => "reassignment"
  | loops => "loops"
  | ifStatements => "if-statements"
  | console => "console"
  | helperFunctions => "helper-functions"

def ofName? (text : String) : Option Construct :=
  all.find? fun construct => construct.name == text

end Construct

structure Rules where
  expectedFunctions : Option (List String) := none
  validDeclarations : Option (List DeclarationKind) := none
  allowedImports : Option (List String) := none
  disallow : Option (List Construct) := none
deriving Repr, DecidableEq

namespace Rules

def empty : Rules := {}

def disallows (rules : Rules) (construct : Construct) : Bool :=
  match rules.disallow with
  | some constructs => constructs.contains construct
  | none => false

def expectsFunction (rules : Rules) (name : String) : Bool :=
  match rules.expectedFunctions with
  | some names => names.contains name
  | none => false

/-- Without a list of valid declarations every kind is allowed. -/
def allowsDeclaration (rules : Rules) (kind : DeclarationKind) : Bool :=
  match rules.validDeclarations with
  | some kinds => kinds.contains kind
  | none => true

end Rules

end Rubric
