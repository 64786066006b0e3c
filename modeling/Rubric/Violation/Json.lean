import Rubric.Rules.Json
import Rubric.Violation.Basic

/-!
Violations as JSON. A violation is written as an object whose first member is its tag. It is read
back from such an object, whose members may stand in any order among others, or from a list of
the tag and the fields. The tag is judged as soon as it is met and the fields once the whole
value has been read, which decides which of several faults is reported.
-/
namespace Rubric

open Schema

namespace Violation

def fields : Violation → List (String × Json)
  | missingFunctions missing => [("missing", Json.strings missing)]
  | declaration kind code => [("disallowed", .string kind.keyword), ("code", .string code)]
  | reassignment code => [("code", .string code)]
  | loop code => [("code", .string code)]
  | ifStatement code => [("code", .string code)]
  | importRefused module code => [("name", .string module), ("code", .string code)]
  | console code => [("code", .string code)]
  | helperFunction code => [("code", .string code)]

def toJson (violation : Violation) : Json :=
  .object (("_tag", .string violation.tag.name) :: violation.fields)

def Tag.names : Names Tag := ⟨all.map name, ofName?⟩

/-- Names of the fields of a violation, in the order in which they are written. -/
def Tag.fieldNames : Tag → List String
  | missingExpectedFunction => ["missing"]
  | disallowedDeclarations => ["disallowed", "code"]
  | disallowedImport => ["name", "code"]
  | _ => ["code"]

inductive Field where
  | names (values : List String)
  | kind (value : DeclarationKind)
  | text (value : String)
deriving Repr, DecidableEq

/-- A declaration kind is its keyword, or an object that maps the keyword to null or to an empty
object. -/
def kindFromJson : Json → Except Mismatch DeclarationKind
  | .string name => DeclarationKind.names.decode name
  | .object [(name, value)] =>
      match DeclarationKind.names.decode name, value with
      | .error e, _ => .error e
      | .ok kind, .null => .ok kind
      | .ok kind, .object [] => .ok kind
      | .ok _, value => .error (.wrongType (.ofJson value) .unit)
  | .object _ => .error .notSingleKey
  | value => .error (.wrongType (.ofJson value) .variant)

def fieldFromJson (name : String) (value : Json) : Except Mismatch Field :=
  if name = "missing" then (Rules.listFromJson Rules.stringFromJson value).map .names
  else if name = "disallowed" then (kindFromJson value).map .kind
  else (Rules.stringFromJson value).map .text

def fieldsFromMembers (wanted : List String) (found : List (String × Field)) :
    List (String × Json) → Except Mismatch (List (String × Field))
  | [] => .ok found
  | (name, value) :: rest =>
      if wanted.contains name then
        if found.any fun field => field.1 == name then .error (.duplicateField name)
        else
          match fieldFromJson name value with
          | .error e => .error e
          | .ok field => fieldsFromMembers wanted (found ++ [(name, field)]) rest
      else fieldsFromMembers wanted found rest

/-- The fields in order, or the first that is missing. -/
def arrange (found : List (String × Field)) : List String → Except Mismatch (List Field)
  | [] => .ok []
  | name :: rest =>
      match found.lookup name with
      | none => .error (.missingField name)
      | some field => (arrange found rest).map (field :: ·)

/-- Decodes items as the fields in order, `position` of them having been decoded. -/
def fieldsFromItems (tag : Tag) (position : Nat) :
    List String → List Json → Except Mismatch (List Field)
  | [], items =>
      if items.isEmpty then .ok []
      else .error (.tooManyItems (position + items.length) position)
  | _ :: _, [] => .error (.tooFewItems position tag.name tag.fieldNames.length)
  | name :: names, item :: items =>
      match fieldFromJson name item with
      | .error e => .error e
      | .ok field => (fieldsFromItems tag (position + 1) names items).map (field :: ·)

def ofFields? : Tag → List Field → Option Violation
  | .missingExpectedFunction, [.names missing] => some (missingFunctions missing)
  | .disallowedDeclarations, [.kind kind, .text code] => some (declaration kind code)
  | .disallowedReassignment, [.text code] => some (reassignment code)
  | .disallowedLoops, [.text code] => some (loop code)
  | .disallowedIfStatements, [.text code] => some (ifStatement code)
  | .disallowedImport, [.text module, .text code] => some (importRefused module code)
  | .disallowedConsole, [.text code] => some (console code)
  | .disallowedHelperFunctions, [.text code] => some (helperFunction code)
  | _, _ => none

/-- What is left of a tagged value without its tag. -/
inductive Content where
  | members (list : List (String × Json))
  | items (list : List Json)

def Content.fields (tag : Tag) : Content → Except Mismatch (List Field)
  | members list =>
      match fieldsFromMembers tag.fieldNames [] list with
      | .error e => .error e
      | .ok found => arrange found tag.fieldNames
  | items list => fieldsFromItems tag 0 tag.fieldNames list

def Content.decode (tag : Tag) (content : Content) : Except Mismatch Violation :=
  match content.fields tag with
  | .error e => .error e
  | .ok fields =>
      match ofFields? tag fields with
      | some violation => .ok violation
      | none => .error (.missingField "_tag")

inductive DecodeError where
  | fault (cause : Json.Cause)
  | mismatch (cause : Mismatch)
deriving Repr, DecidableEq

def DecodeError.message : DecodeError → String
  | fault cause => cause.message
  | mismatch cause => cause.message

abbrev Decode (α : Type) := Except DecodeError (α × List Char)

def ofRead {α : Type} : Json.Read α → Decode α
  | .ok step => .ok step
  | .error fault => .error (.fault fault.cause)

/-- A value that stands where no list or object is wanted; those are refused at their bracket. -/
def scalar (wanted : Wanted) (s : List Char) : Decode Json :=
  match Json.skipBlanks s with
  | '[' :: _ => .error (.mismatch (.wrongType .sequence wanted))
  | '\x7b' :: _ => .error (.mismatch (.wrongType .map wanted))
  | rest => ofRead (Json.readValue 0 rest)

def readTag (s : List Char) : Decode Tag :=
  match scalar .tag s with
  | .error e => .error e
  | .ok (.string name, rest) =>
      match Tag.names.decode name with
      | .ok tag => .ok (tag, rest)
      | .error e => .error (.mismatch e)
  | .ok (value, _) => .error (.mismatch (.wrongType (.ofJson value) .tag))

def innerDepth : Nat := Json.depthLimit - 1

/-- Members up to the closing bracket. The tag is read where it stands and may stand once. Each
member consumes a character, so the length of the text is fuel enough. -/
def readMembers : Nat → Bool → Option Tag → List (String × Json) → List Char →
    Decode (Option Tag × List (String × Json))
  | 0, _, _, _, _ => .error (.fault .endInObject)
  | fuel + 1, first, tag, members, s =>
      match Json.Brackets.object.next first s with
      | .error fault => .error (.fault fault.cause)
      | .ok (.done rest) => .ok ((tag, members), rest)
      | .ok (.item s) =>
          match Json.readKey s with
          | .error fault => .error (.fault fault.cause)
          | .ok (name, s) =>
              if name = "_tag" ∧ tag.isSome then .error (.mismatch (.duplicateField "_tag"))
              else
                match Json.readColon s with
                | .error fault => .error (.fault fault.cause)
                | .ok (_, s) =>
                    if name = "_tag" then
                      match readTag s with
                      | .error e => .error e
                      | .ok (tag, s) => readMembers fuel false (some tag) members s
                    else
                      match Json.readValue innerDepth s with
                      | .error fault => .error (.fault fault.cause)
                      | .ok (value, s) =>
                          readMembers fuel false tag (members ++ [(name, value)]) s

def readObject (s : List Char) : Decode (Tag × Content) :=
  match readMembers (s.length + 1) true none [] s with
  | .error e => .error e
  | .ok ((some tag, members), rest) => .ok ((tag, .members members), rest)
  | .ok ((none, _), _) => .error (.mismatch (.missingField "_tag"))

def readItems (s : List Char) : Decode (Tag × Content) :=
  match Json.Brackets.list.next true s with
  | .error fault => .error (.fault fault.cause)
  | .ok (.done _) => .error (.mismatch (.missingField "_tag"))
  | .ok (.item s) =>
      match readTag s with
      | .error e => .error e
      | .ok (tag, s) =>
          match Json.Brackets.list.items (Json.readValue innerDepth) (s.length + 1) false s with
          | .error fault => .error (.fault fault.cause)
          | .ok (items, rest) => .ok ((tag, .items items), rest)

def readTagged (s : List Char) : Decode (Tag × Content) :=
  match Json.skipBlanks s with
  | '\x7b' :: rest => readObject rest
  | '[' :: rest => readItems rest
  | rest =>
      match scalar .violation rest with
      | .error e => .error e
      | .ok (value, _) => .error (.mismatch (.wrongType (.ofJson value) .violation))

def parse (text : List Char) : Except DecodeError Violation :=
  match readTagged text with
  | .error e => .error e
  | .ok ((tag, content), rest) =>
      match content.decode tag with
      | .error e => .error (.mismatch e)
      | .ok violation =>
          match Json.finish violation rest with
          | .error fault => .error (.fault fault.cause)
          | .ok violation => .ok violation

end Violation

end Rubric
