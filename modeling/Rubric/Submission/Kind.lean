/-!
Categories of nodes that the checks tell apart. A grammar's own names are mapped to them once,
when a submission is built; whatever no check asks about becomes `other`.
-/
namespace Rubric

inductive DeclarationKind where
  | constDecl
  | letDecl
  | varDecl
deriving Repr, DecidableEq

namespace DeclarationKind

/-- All kinds, in the order in which they are reported. -/
def all : List DeclarationKind := [constDecl, letDecl, varDecl]

def keyword : DeclarationKind → String
  | constDecl => "const"
  | letDecl => "let"
  | varDecl => "var"

def label : DeclarationKind → String
  | constDecl => "Const"
  | letDecl => "Let"
  | varDecl => "Var"

def ofKeyword? (text : String) : Option DeclarationKind :=
  all.find? fun kind => kind.keyword == text

end DeclarationKind

inductive Operator where
  | assign
  | increment
  | decrement
  | addAssign
  | subAssign
  | mulAssign
  | divAssign
  | remAssign
  | bitOrAssign
  | orAssign
  | bitAndAssign
  | andAssign
  | bitXorAssign
  | nullishAssign
  | shiftLeftAssign
  | shiftRightAssign
  | unsignedShiftRightAssign
deriving Repr, DecidableEq

namespace Operator

def all : List Operator :=
  [assign, increment, decrement, addAssign, subAssign, mulAssign, divAssign, remAssign,
    bitOrAssign, orAssign, bitAndAssign, andAssign, bitXorAssign, nullishAssign,
    shiftLeftAssign, shiftRightAssign, unsignedShiftRightAssign]

def token : Operator → String
  | assign => "="
  | increment => "++"
  | decrement => "--"
  | addAssign => "+="
  | subAssign => "-="
  | mulAssign => "*="
  | divAssign => "/="
  | remAssign => "%="
  | bitOrAssign => "|="
  | orAssign => "||="
  | bitAndAssign => "&="
  | andAssign => "&&="
  | bitXorAssign => "^="
  | nullishAssign => "??="
  | shiftLeftAssign => "<<="
  | shiftRightAssign => ">>="
  | unsignedShiftRightAssign => ">>>="

def label : Operator → String
  | assign => "Assign"
  | increment => "Increment"
  | decrement => "Decrement"
  | addAssign => "AddAssign"
  | subAssign => "SubAssign"
  | mulAssign => "MulAssign"
  | divAssign => "DivAssign"
  | remAssign => "RemAssign"
  | bitOrAssign => "BitOrAssign"
  | orAssign => "OrAssign"
  | bitAndAssign => "BitAndAssign"
  | andAssign => "AndAssign"
  | bitXorAssign => "BitXorAssign"
  | nullishAssign => "NullishAssign"
  | shiftLeftAssign => "ShlAssign"
  | shiftRightAssign => "ShrAssign"
  | unsignedShiftRightAssign => "UShrAssign"

def ofToken? (text : String) : Option Operator :=
  all.find? fun operator => operator.token == text

def isUpdate : Operator → Bool
  | increment => true
  | decrement => true
  | _ => false

/-- Assignments that combine the old value with a new one. -/
def isCompound : Operator → Bool
  | assign => false
  | increment => false
  | decrement => false
  | _ => true

end Operator

inductive NodeKind where
  | program
  | functionDeclaration
  | functionExpression
  | arrowFunction
  | lexicalDeclaration
  | variableDeclaration
  | variableDeclarator
  | exportStatement
  | importStatement
  | importClause
  | namedImports
  | importSpecifier
  | namespaceImport
  | stringLiteral
  | identifier
  | ifStatement
  | forStatement
  | forInStatement
  | whileStatement
  | doStatement
  | assignmentExpression
  | augmentedAssignmentExpression
  | updateExpression
  | declarationKeyword (kind : DeclarationKind)
  | operator (operator : Operator)
  | error
  | other
deriving Repr, DecidableEq

namespace NodeKind

def ofToken (text : String) : NodeKind :=
  match DeclarationKind.ofKeyword? text with
  | some kind => declarationKeyword kind
  | none =>
      match Operator.ofToken? text with
      | some op => operator op
      | none => other

/-- Rules that have a category of their own. A shorthand property is both a key and a reference,
so it counts as an identifier. -/
def ruleKinds : List (String × NodeKind) :=
  [("program", program),
   ("function_declaration", functionDeclaration),
   ("generator_function_declaration", functionDeclaration),
   ("function_expression", functionExpression),
   ("function", functionExpression),
   ("generator_function", functionExpression),
   ("arrow_function", arrowFunction),
   ("lexical_declaration", lexicalDeclaration),
   ("variable_declaration", variableDeclaration),
   ("variable_declarator", variableDeclarator),
   ("export_statement", exportStatement),
   ("import_statement", importStatement),
   ("import_clause", importClause),
   ("named_imports", namedImports),
   ("import_specifier", importSpecifier),
   ("namespace_import", namespaceImport),
   ("string", stringLiteral),
   ("identifier", identifier),
   ("shorthand_property_identifier", identifier),
   ("shorthand_property_identifier_pattern", identifier),
   ("if_statement", ifStatement),
   ("for_statement", forStatement),
   ("for_in_statement", forInStatement),
   ("while_statement", whileStatement),
   ("do_statement", doStatement),
   ("assignment_expression", assignmentExpression),
   ("augmented_assignment_expression", augmentedAssignmentExpression),
   ("update_expression", updateExpression),
   ("ERROR", error)]

def ofRule (rule : String) : NodeKind := (ruleKinds.lookup rule).getD other

/-- Category of a node of the grammar. Rules and tokens may share a name. -/
def ofGrammar (kind : String) (named : Bool) : NodeKind :=
  if named then ofRule kind else ofToken kind

def isFunctionLike : NodeKind → Bool
  | functionDeclaration => true
  | functionExpression => true
  | arrowFunction => true
  | _ => false

/-- Loop statements. One category covers loops over values and over keys. -/
def isLoop : NodeKind → Bool
  | forStatement => true
  | forInStatement => true
  | whileStatement => true
  | doStatement => true
  | _ => false

def isDeclaration : NodeKind → Bool
  | lexicalDeclaration => true
  | variableDeclaration => true
  | _ => false

def operator? : NodeKind → Option Operator
  | operator op => some op
  | _ => none

def keyword? : NodeKind → Option DeclarationKind
  | declarationKeyword kind => some kind
  | _ => none

def label : NodeKind → String
  | program => "Program"
  | functionDeclaration => "FunctionDeclaration"
  | functionExpression => "FunctionExpression"
  | arrowFunction => "ArrowFunction"
  | lexicalDeclaration => "LexicalDeclaration"
  | variableDeclaration => "VariableDeclaration"
  | variableDeclarator => "VariableDeclarator"
  | exportStatement => "ExportStatement"
  | importStatement => "ImportStatement"
  | importClause => "ImportClause"
  | namedImports => "NamedImports"
  | importSpecifier => "ImportSpecifier"
  | namespaceImport => "NamespaceImport"
  | stringLiteral => "StringLiteral"
  | identifier => "Identifier"
  | ifStatement => "IfStatement"
  | forStatement => "ForStatement"
  | forInStatement => "ForInStatement"
  | whileStatement => "WhileStatement"
  | doStatement => "DoStatement"
  | assignmentExpression => "AssignmentExpression"
  | augmentedAssignmentExpression => "AugmentedAssignmentExpression"
  | updateExpression => "UpdateExpression"
  | declarationKeyword kind => "DeclarationKeyword(" ++ kind.label ++ ")"
  | operator op => "Operator(" ++ op.label ++ ")"
  | error => "Error"
  | other => "Other"

end NodeKind

end Rubric
