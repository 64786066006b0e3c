import Rubric.Detector.Functions
import Rubric.Imports.AllowList
import Rubric.Logged
import Rubric.Rules.Basic
import Rubric.Violation.Basic

/-!
The checks. Each looks at a submission under rules and returns its findings, and returns none
when the rules do not ask for it.
-/
namespace Rubric.Check

variable (submission : Submission) (rules : Rules)

def report (make : String → Violation) (i : Nat) : Finding :=
  Finding.at (make (submission.text i)) (submission.span i)

/-! Expected functions -/

/-- Expected names that are not among those found, each once, in the order of their first
occurrence. -/
def missingNames (found : List String) (expected : List String) : List String :=
  expected.foldl
    (fun missing name =>
      if found.contains name || missing.contains name then missing else missing ++ [name]) []

def expectedFunctions : List Finding :=
  match rules.expectedFunctions with
  | none => []
  | some expected =>
      (Violation.missingFunctions? (missingNames submission.topLevelNames expected)).toList.map
        Finding.wholeFile

/-! Declarations -/

/-- Whether a keyword heads a declaration. It also occurs in other places, such as `as const`. -/
def headsDeclaration (keyword : Nat) : Bool :=
  match submission.parent keyword with
  | some parent =>
      (submission.kind parent).isDeclaration || submission.kind parent == .forInStatement
  | none => false

/-- The last declared binding next to a keyword: the variable of a loop header, or the last
declarator of a declaration. -/
def lastBinding? (parent : Nat) : Option Nat :=
  if submission.kind parent = .forInStatement then submission.childByField parent "left"
  else (submission.children parent).reverse.find? fun child =>
    submission.kind child == .variableDeclarator

def declarationSpan (keyword : Nat) : Span :=
  match submission.parent keyword with
  | none => submission.span keyword
  | some parent =>
      let stop :=
        match lastBinding? submission parent with
        | some last => (submission.span last).stop
        | none => (submission.span parent).stop
      ⟨(submission.span keyword).start, stop⟩

def declarationKeywords : List (DeclarationKind × Nat) :=
  submission.indices.filterMap fun i =>
    match submission.kind i with
    | .declarationKeyword kind =>
        if headsDeclaration submission i then some (kind, i) else none
    | _ => none

def declarationFinding (keyword : DeclarationKind × Nat) : Finding :=
  let span := declarationSpan submission keyword.2
  Finding.at (.declaration keyword.1 (submission.slice span)) span

def declarationsOf (keywords : List (DeclarationKind × Nat)) (kind : DeclarationKind) :
    List Finding :=
  (keywords.filter fun keyword => keyword.1 == kind).map (declarationFinding submission)

/-- Findings are grouped by kind. -/
def validDeclarations : List Finding :=
  if rules.validDeclarations.isSome then
    let keywords := declarationKeywords submission
    let steps := DeclarationKind.all.map fun kind =>
      fun (_ : Unit) =>
        if rules.allowsDeclaration kind then Logged.success ()
        else ⟨(), declarationsOf submission keywords kind⟩
    (Logged.fold () steps).log
  else []

/-! Reassignment -/

/-- Operators that reassign. A plain assignment counts only in an assignment expression, not in
an initialiser. -/
def isReassigning (i : Nat) : Bool :=
  match submission.kind i with
  | .operator .assign =>
      match submission.parent i with
      | some parent => submission.kind parent == .assignmentExpression
      | none => false
  | .operator op => op.isUpdate || op.isCompound
  | _ => false

def noReassignment : List Finding :=
  if rules.disallows .reassignment then
    (submission.indices.filter (isReassigning submission)).filterMap fun i =>
      (submission.parent i).map (report submission .reassignment)
  else []

/-! Loops -/

/-- Whether a loop runs over values. A binding with the name of the keyword is an identifier and
does not count. -/
def iteratesValues (i : Nat) : Bool :=
  match submission.childByField i "operator" with
  | some op => submission.text op == "of"
  | none =>
      (submission.children i).any fun child =>
        submission.kind child == .other && submission.text child == "of"

/-- Loops over keys are not reported. -/
def isReportedLoop (i : Nat) : Bool :=
  if submission.kind i = .forInStatement then iteratesValues submission i
  else (submission.kind i).isLoop

def noLoops : List Finding :=
  if rules.disallows .loops then
    (submission.indices.filter (isReportedLoop submission)).map (report submission .loop)
  else []

/-! Conditional statements -/

def noIfStatements : List Finding :=
  if rules.disallows .ifStatements then
    (submission.indices.filter fun i => submission.kind i == .ifStatement).map
      (report submission .ifStatement)
  else []

/-! Console -/

def isConsole (i : Nat) : Bool :=
  submission.kind i == .identifier && submission.text i == "console"

/-- The finding points at the identifier and shows what surrounds it. -/
def consoleFinding (i : Nat) : Finding :=
  Finding.at (.console (submission.text ((submission.parent i).getD i))) (submission.span i)

def noConsole : List Finding :=
  if rules.disallows .console then
    (submission.indices.filter (isConsole submission)).map (consoleFinding submission)
  else []

/-! Helper functions -/

def isHelper (i : Nat) : Bool :=
  match submission.functionName? i with
  | some name => !rules.expectsFunction name
  | none => false

def noHelperFunctions : List Finding :=
  if rules.expectedFunctions.isSome && rules.disallows .helperFunctions then
    (submission.indices.filter (isHelper submission rules)).map
      (report submission .helperFunction)
  else []

/-! Imports -/

def isQuote (c : Char) : Bool := c = '"' || c = '\x27'

def stripQuotes (literal : String) : String :=
  String.ofList (((literal.toList.dropWhile isQuote).reverse.dropWhile isQuote).reverse)

/-- Whether an identifier of an import clause names what is imported. An alias does not. -/
def isImportedName (i : Nat) : Bool :=
  submission.kind i == .identifier &&
    (match submission.parent i with
      | some parent =>
          submission.kind parent != .importSpecifier || submission.field i == some "name"
      | none => true)

/-- Names that an import statement binds, under the names they are exported by. -/
def boundNames (statement : Nat) : List String :=
  match (submission.children statement).find? fun child =>
      submission.kind child == .importClause with
  | none => []
  | some clause =>
      ((submission.descendants clause).filter (isImportedName submission)).map submission.text

def importFinding? (allowed : Imports.AllowList) (statement : Nat) : Option Finding :=
  match submission.childByField statement "source" with
  | none => none
  | some source =>
      let module := stripQuotes (submission.text source)
      if allowed.allows module (boundNames submission statement) then none
      else some (report submission (.importRefused module) statement)

def allowedImports : List Finding :=
  match rules.allowedImports with
  | none => []
  | some patterns =>
      let allowed := Imports.AllowList.ofPatterns patterns
      (submission.indices.filter fun i => submission.kind i == .importStatement).filterMap
        (importFinding? submission allowed)

end Rubric.Check
