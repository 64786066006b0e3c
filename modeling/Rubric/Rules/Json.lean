import Rubric.Json.Printer
import Rubric.Json.Reader
import Rubric.Rules.Names

/-!
Rules as JSON documents. A document is read to a value first, in which the last of several equal
keys counts, and the value is then decoded. Fields are decoded in the order of their keys, so
which of several faults is reported does not depend on how the document was written.
-/
namespace Rubric

open Schema

namespace Rules

def stringFromJson : Json → Except Mismatch String
  | .string value => .ok value
  | value => .error (.wrongType (.ofJson value) .string)

/-- A variant is its name, or an object that maps the name to null. -/
def variantFromJson {α : Type} (variants : Names α) : Json → Except Mismatch α
  | .string name => variants.decode name
  | .object members =>
      match Json.lastMembers members with
      | [(name, value)] =>
          match variants.decode name, value with
          | .error e, _ => .error e
          | .ok variant, .null => .ok variant
          | .ok _, value => .error (.wrongType (.ofJson value) .unit)
      | _ => .error .notSingleKey
  | value => .error (.wrongType (.ofJson value) .variant)

def listFromJson {α : Type} (decode : Json → Except Mismatch α) :
    Json → Except Mismatch (List α)
  | .array items => decodeEach decode items
  | value => .error (.wrongType (.ofJson value) .sequence)

/-- A field that is absent or null is not there. -/
def fieldFromJson {α : Type} (decode : Json → Except Mismatch α) :
    Option Json → Except Mismatch (Option (List α))
  | none => .ok none
  | some .null => .ok none
  | some value => (listFromJson decode value).map some

def fromMembers (members : List (String × Json)) : Except Mismatch Rules := do
  let allowedImports ← fieldFromJson stringFromJson (Json.lastMember? members "allowedImports")
  let disallow ←
    fieldFromJson (variantFromJson Construct.names) (Json.lastMember? members "disallow")
  let expectedFunctions ←
    fieldFromJson stringFromJson (Json.lastMember? members "expectedFunctions")
  let validDeclarations ←
    fieldFromJson (variantFromJson DeclarationKind.names)
      (Json.lastMember? members "validDeclarations")
  return { expectedFunctions, validDeclarations, allowedImports, disallow }

def fromItems (items : List Json) : Except Mismatch Rules := do
  let expectedFunctions ← fieldFromJson stringFromJson items[0]?
  let validDeclarations ← fieldFromJson (variantFromJson DeclarationKind.names) items[1]?
  let allowedImports ← fieldFromJson stringFromJson items[2]?
  let disallow ← fieldFromJson (variantFromJson Construct.names) items[3]?
  if items.length ≤ 4 then
    return { expectedFunctions, validDeclarations, allowedImports, disallow }
  else
    throw (.excessItems items.length)

def fromJson : Json → Except Mismatch Rules
  | .object members => fromMembers members
  | .array items => fromItems items
  | value => .error (.wrongType (.ofJson value) .rules)

def memberOf (key : String) (items : Option (List String)) : List (String × Json) :=
  match items with
  | some items => [(key, Json.strings items)]
  | none => []

def toJson (rules : Rules) : Json :=
  .object <|
    memberOf "expectedFunctions" rules.expectedFunctions ++
      memberOf "validDeclarations"
        (rules.validDeclarations.map fun kinds => kinds.map DeclarationKind.keyword) ++
      memberOf "allowedImports" rules.allowedImports ++
      memberOf "disallow" (rules.disallow.map fun constructs => constructs.map Construct.name)

end Rules

end Rubric
