import Rubric.Rules.Names
import Rubric.Toml.Document

/-!
Rules as TOML documents, with the same keys as in JSON. A document that does not fit names the
field at fault. Fields are decoded in the order of their keys.
-/
namespace Rubric

open Schema

namespace Toml

/-- Numbers are always written positionally; of two equally near decimals the greater is taken. -/
def numberLayout : Decimal.Layout := ⟨.up, none, none, []⟩

def typeName : Toml → String
  | .string _ => "string"
  | .integer _ => "integer"
  | .real _ => "float"
  | .boolean _ => "boolean"
  | .moment _ => "datetime"
  | .array _ => "array"
  | .table _ => "table"

end Toml

/-- How a TOML value is named; a moment counts as its text. -/
def Schema.Found.ofToml : Toml → Found
  | .string value => .string value
  | .integer value => .integer value
  | .real value => .real (value.text Toml.numberLayout)
  | .boolean value => .boolean value
  | .moment value => .string value.text
  | .array _ => .sequence
  | .table _ => .map

/-- A mismatch in a field of a document, or in the document as a whole. -/
structure Schema.FieldMismatch where
  field : Option String
  cause : Mismatch
deriving Repr, DecidableEq

/-- The cause on a line, and a line with the field. -/
def Schema.FieldMismatch.message (mismatch : FieldMismatch) : String :=
  mismatch.cause.message ++ "\n" ++
    match mismatch.field with
    | some field => "in " ++ backquoted field ++ "\n"
    | none => ""

namespace Rules

def stringFromToml : Toml → Except Mismatch String
  | .string value => .ok value
  | .moment value => .ok value.text
  | value => .error (.wrongType (.ofToml value) .string)

/-- What a variant's name is mapped to has to be empty. -/
def emptyFromToml : Toml → Except Mismatch Unit
  | .array [] => .ok ()
  | .array (_ :: _) => .error .itemsLeft
  | .table [] => .ok ()
  | .table (_ :: _) => .error .entriesLeft
  | value => .error (.tableWanted value.typeName)

/-- A variant is its name, or a table that maps the name to nothing. -/
def variantFromToml {α : Type} (variants : Names α) : Toml → Except Mismatch α
  | .string name => variants.decode name
  | .table [] => .error .emptyTable
  | .table [(name, value)] =>
      match variants.decode name, emptyFromToml value with
      | .error e, _ => .error e
      | .ok _, .error e => .error e
      | .ok variant, .ok () => .ok variant
  | .table (_ :: _ :: _) => .error .crowdedTable
  | _ => .error (.wrongType .unitVariant .plainVariant)

def listFromToml {α : Type} (decode : Toml → Except Mismatch α) :
    Toml → Except Mismatch (List α)
  | .array items => decodeEach decode items
  | value => .error (.wrongType (.ofToml value) .sequence)

def fieldFromToml {α : Type} (decode : Toml → Except Mismatch α)
    (entries : List (String × Toml)) (field : String) :
    Except FieldMismatch (Option (List α)) :=
  match entries.find? fun entry => entry.1 == field with
  | none => .ok none
  | some (_, value) =>
      match listFromToml decode value with
      | .error cause => .error ⟨some field, cause⟩
      | .ok items => .ok (some items)

def fromEntries (entries : List (String × Toml)) : Except FieldMismatch Rules := do
  let allowedImports ← fieldFromToml stringFromToml entries "allowedImports"
  let disallow ← fieldFromToml (variantFromToml Construct.names) entries "disallow"
  let expectedFunctions ← fieldFromToml stringFromToml entries "expectedFunctions"
  let validDeclarations ←
    fieldFromToml (variantFromToml DeclarationKind.names) entries "validDeclarations"
  return { expectedFunctions, validDeclarations, allowedImports, disallow }

def fromToml : Toml → Except FieldMismatch Rules
  | .table entries => fromEntries entries
  | value => .error ⟨none, .wrongType (.ofToml value) .rules⟩

/-- A line for a field that is there. A list of several items has a line for each. -/
def lineOf (key : String) (items : Option (List String)) : String :=
  match items with
  | none => ""
  | some [] => key ++ " = []\n"
  | some [item] => key ++ " = [" ++ Toml.literal item ++ "]\n"
  | some items =>
      key ++ " = [\n" ++
        String.join (items.map fun item => "    " ++ Toml.literal item ++ ",\n") ++ "]\n"

def toToml (rules : Rules) : String :=
  lineOf "expectedFunctions" rules.expectedFunctions ++
    lineOf "validDeclarations"
      (rules.validDeclarations.map fun kinds => kinds.map DeclarationKind.keyword) ++
    lineOf "allowedImports" rules.allowedImports ++
    lineOf "disallow" (rules.disallow.map fun constructs => constructs.map Construct.name)

end Rules

end Rubric
