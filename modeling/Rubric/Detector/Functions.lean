import Rubric.Submission.Basic

/-!
Named functions in a submission. A function is named by its declaration, or by the variable it is
assigned to where it is declared. Top-level functions stand directly in the program, bare or
exported.
-/
namespace Rubric.Submission

variable (submission : Submission)

def isFunctionDeclarator (i : Nat) : Bool :=
  submission.kind i == .variableDeclarator &&
    match submission.childByField i "value" with
    | some value => (submission.kind value).isFunctionLike
    | none => false

/-- Name of a function declaration or of a declarator whose value is a function. Anonymous
functions and destructuring declarators have none. -/
def functionName? (i : Nat) : Option String :=
  if submission.kind i = .functionDeclaration then
    (submission.childByField i "name").map submission.text
  else if submission.isFunctionDeclarator i then
    match submission.childByField i "name" with
    | some name =>
        if submission.kind name = .identifier then some (submission.text name) else none
    | none => none
  else none

/-- A statement of the program as it counts for the top level: an export stands for what it
exports. -/
def topLevelItem? (i : Nat) : Option Nat :=
  if submission.kind i = .exportStatement then submission.childByField i "declaration"
  else some i

def itemFunctions (i : Nat) : List Nat :=
  if submission.kind i = .functionDeclaration then [i]
  else if (submission.kind i).isDeclaration then
    (submission.children i).filter submission.isFunctionDeclarator
  else []

def topLevelFunctions : List Nat :=
  ((submission.children 0).filterMap submission.topLevelItem?).flatMap submission.itemFunctions

def topLevelNames : List String :=
  submission.topLevelFunctions.filterMap submission.functionName?

end Rubric.Submission
