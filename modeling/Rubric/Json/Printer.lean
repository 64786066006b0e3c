import Rubric.Json.Basic
import Rubric.Json.Literal

/-!
Writing JSON, on one line without blanks or indented by two spaces a level. An empty list or
object is written as its two brackets in both layouts.
-/
namespace Rubric.Json

def numberChars (number : Number) : List Char := number.text.toList

mutual

def compactChars : Json → List Char
  | .null => ['n', 'u', 'l', 'l']
  | .bool true => ['t', 'r', 'u', 'e']
  | .bool false => ['f', 'a', 'l', 's', 'e']
  | .number value => numberChars value
  | .string value => literal value
  | .array items => '[' :: compactItems items ++ [']']
  | .object members => '\x7b' :: compactMembers members ++ ['\x7d']

def compactItems : List Json → List Char
  | [] => []
  | [item] => compactChars item
  | item :: next :: rest => compactChars item ++ ',' :: compactItems (next :: rest)

def compactMembers : List (String × Json) → List Char
  | [] => []
  | [(key, value)] => literal key ++ ':' :: compactChars value
  | (key, value) :: next :: rest =>
      literal key ++ ':' :: compactChars value ++ ',' :: compactMembers (next :: rest)

end

def compact (json : Json) : String := String.ofList (compactChars json)

def newline (level : Nat) : List Char := '\n' :: List.replicate (2 * level) ' '

mutual

/-- Indented, the brackets of the value standing at a level. -/
def prettyChars (level : Nat) : Json → List Char
  | .null => ['n', 'u', 'l', 'l']
  | .bool true => ['t', 'r', 'u', 'e']
  | .bool false => ['f', 'a', 'l', 's', 'e']
  | .number value => numberChars value
  | .string value => literal value
  | .array [] => ['[', ']']
  | .array (item :: rest) =>
      '[' :: prettyItems (level + 1) (item :: rest) ++ newline level ++ [']']
  | .object [] => ['\x7b', '\x7d']
  | .object (member :: rest) =>
      '\x7b' :: prettyMembers (level + 1) (member :: rest) ++ newline level ++ ['\x7d']

def prettyItems (level : Nat) : List Json → List Char
  | [] => []
  | [item] => newline level ++ prettyChars level item
  | item :: next :: rest =>
      newline level ++ prettyChars level item ++ ',' :: prettyItems level (next :: rest)

def prettyMembers (level : Nat) : List (String × Json) → List Char
  | [] => []
  | [(key, value)] => newline level ++ literal key ++ ':' :: ' ' :: prettyChars level value
  | (key, value) :: next :: rest =>
      newline level ++ literal key ++ ':' :: ' ' :: prettyChars level value ++
        ',' :: prettyMembers level (next :: rest)

end

def pretty (json : Json) : String := String.ofList (prettyChars 0 json)

end Rubric.Json
