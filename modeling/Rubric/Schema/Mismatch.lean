import Rubric.Json.Basic
import Rubric.Text.Quoted

/-!
Why a value does not have the shape a document asks for. Each cause has one wording, which is
shared by all documents that are decoded.
-/
namespace Rubric.Schema

inductive Found where
  | null
  | boolean (value : Bool)
  | integer (value : Int)
  | real (text : String)
  | string (text : String)
  | sequence
  | map
  | unitVariant
deriving Repr, DecidableEq

def Found.text : Found → String
  | null => "null"
  | boolean value => "boolean `" ++ (if value then "true" else "false") ++ "`"
  | integer value => "integer `" ++ toString value ++ "`"
  | real text => "floating point `" ++ text ++ "`"
  | string text => "string " ++ Text.quoted text
  | sequence => "sequence"
  | map => "map"
  | unitVariant => "unit variant"

def Found.ofJson : Json → Found
  | .null => null
  | .bool value => boolean value
  | .number (.integer value) => integer value
  | .number (.real value) => real ((Json.Number.real value).text)
  | .string value => string value
  | .array _ => sequence
  | .object _ => map

inductive Wanted where
  | rules
  | sequence
  | string
  | variant
  | plainVariant
  | unit
  | tag
  | violation
deriving Repr, DecidableEq

def Wanted.text : Wanted → String
  | rules => "struct Rules"
  | sequence => "a sequence"
  | string => "a string"
  | variant => "string or map"
  | plainVariant => "string only"
  | unit => "unit"
  | tag => "variant identifier"
  | violation => "internally tagged enum RuleViolation"

inductive Mismatch where
  | wrongType (found : Found) (wanted : Wanted)
  | notSingleKey
  | excessItems (count : Nat)
  | unknownVariant (name : String) (names : List String)
  | missingField (name : String)
  | duplicateField (name : String)
  | tooFewItems (count : Nat) (tag : String) (fields : Nat)
  | tooManyItems (count : Nat) (fields : Nat)
  | emptyTable
  | crowdedTable
  | itemsLeft
  | entriesLeft
  | tableWanted (found : String)
deriving Repr, DecidableEq

/-- A count of elements, in the singular for one. -/
def elements (count : Nat) : String :=
  toString count ++ (if count = 1 then " element" else " elements")

def backquoted (text : String) : String := "`" ++ text ++ "`"

def Mismatch.message : Mismatch → String
  | wrongType found wanted => "invalid type: " ++ found.text ++ ", expected " ++ wanted.text
  | notSingleKey => "invalid value: map, expected map with a single key"
  | excessItems count =>
      "invalid length " ++ toString count ++ ", expected fewer elements in array"
  | unknownVariant name names =>
      "unknown variant " ++ backquoted name ++ ", expected one of " ++
        ", ".intercalate (names.map backquoted)
  | missingField name => "missing field " ++ backquoted name
  | duplicateField name => "duplicate field " ++ backquoted name
  | tooFewItems count tag fields =>
      "invalid length " ++ toString count ++ ", expected struct variant RuleViolation::" ++ tag ++
        " with " ++ elements fields
  | tooManyItems count fields =>
      "invalid length " ++ toString count ++ ", expected " ++ elements fields ++ " in sequence"
  | emptyTable => "wanted exactly 1 element, found 0 elements"
  | crowdedTable => "wanted exactly 1 element, more than 1 element"
  | itemsLeft => "expected empty array"
  | entriesLeft => "expected empty table"
  | tableWanted found => "expected table, found " ++ found

/-- Decodes items from left to right, up to the first that does not fit. -/
def decodeEach {α β ε : Type} (decode : α → Except ε β) : List α → Except ε (List β)
  | [] => .ok []
  | item :: rest =>
      match decode item with
      | .error e => .error e
      | .ok value =>
          match decodeEach decode rest with
          | .error e => .error e
          | .ok values => .ok (value :: values)

/-- Values with names, such as the constructs that rules list. -/
structure Names (α : Type) where
  names : List String
  ofName? : String → Option α

def Names.decode {α : Type} (variants : Names α) (name : String) : Except Mismatch α :=
  match variants.ofName? name with
  | some value => .ok value
  | none => .error (.unknownVariant name variants.names)

end Rubric.Schema
