import Rubric.Toml.Entries
import Rubric.Toml.Literal
import Rubric.Toml.Numeral

/-!
Keys and values of TOML. Lists and inline tables nest to a fixed depth, and a dotted key has a
limited number of parts.
-/
namespace Rubric.Toml

open Text

def isBareKeyChar (c : Char) : Bool :=
  isDigit c || ('a' ≤ c && c ≤ 'z') || ('A' ≤ c && c ≤ 'Z') || c = '-' || c = '_'

/-- One part of a key: a quoted string on one line, or a bare word. -/
def readKeyPart : List Char → Take String
  | '"' :: rest => basicString rest
  | '\x27' :: rest => literalString rest
  | s =>
      let word := s.span isBareKeyChar
      if word.1.isEmpty then none else some (String.ofList word.1, word.2)

/-- At most so many parts, divided by dots, with blanks around each. -/
def readKeyParts : Nat → List Char → Take (List String)
  | 0, _ => none
  | count + 1, s =>
      match readKeyPart (skipSpaces s) with
      | none => none
      | some (part, rest) =>
          match skipSpaces rest with
          | '.' :: more =>
              match readKeyParts count more with
              | some (parts, rest) => some (part :: parts, rest)
              | none => none
          | rest => some ([part], rest)

/-- Most parts of a key, and most lists and inline tables around a value. -/
def nestingLimit : Nat := 79

def readKey (s : List Char) : Take Key :=
  (readKeyParts nestingLimit s).bind fun step =>
    (Key.ofParts? step.1).map fun key => (key, step.2)

def readScalar (s : List Char) : Take Toml :=
  match s with
  | 't' :: 'r' :: 'u' :: 'e' :: rest => some (.boolean true, rest)
  | 'f' :: 'a' :: 'l' :: 's' :: 'e' :: rest => some (.boolean false, rest)
  | 'i' :: 'n' :: 'f' :: rest => some (.real (.infinite false), rest)
  | 'n' :: 'a' :: 'n' :: rest => some (.real .notANumber, rest)
  | c :: _ =>
      if c = '"' ∨ c = '\x27' then (readString s).map fun step => (.string step.1, step.2)
      else if isDigit c ∨ c = '+' ∨ c = '-' then readNumber s
      else none
  | [] => none

/-- Items of a list after its opening bracket or a comma, with blanks, line breaks and comments
between them. A comma may stand before the closing bracket. Each item takes a character at least,
so the length of the text is fuel enough. -/
def readItems (readItem : List Char → Take Toml) : Nat → List Char → Take (List Toml)
  | 0, _ => none
  | fuel + 1, s =>
      match skipTrivia false s with
      | ']' :: rest => some ([], rest)
      | s =>
          match readItem s with
          | none => none
          | some (item, rest) =>
              match skipTrivia false rest with
              | ']' :: rest => some ([item], rest)
              | ',' :: rest =>
                  match readItems readItem fuel rest with
                  | some (items, rest) => some (item :: items, rest)
                  | none => none
              | _ => none

def readPair (readItem : List Char → Take Toml) (s : List Char) : Take (Key × Toml) :=
  match readKey s with
  | some (key, '=' :: rest) =>
      match readItem (skipSpaces rest) with
      | some (value, rest) => some ((key, value), skipSpaces rest)
      | none => none
  | _ => none

/-- Pairs of an inline table up to its closing brace, all on one line. -/
def readPairs (readItem : List Char → Take Toml) : Nat → List Char → Take (List (Key × Toml))
  | 0, _ => none
  | fuel + 1, s =>
      match readPair readItem s with
      | some (pair, '\x7d' :: rest) => some ([pair], rest)
      | some (pair, ',' :: rest) =>
          match readPairs readItem fuel rest with
          | some (pairs, rest) => some (pair :: pairs, rest)
          | none => none
      | _ => none

def entriesOfPairs (pairs : List (Key × Toml)) : Option Entries :=
  pairs.foldlM (fun entries pair => entries.insert pair.1 pair.2) []

def readInlineTable (readItem : List Char → Take Toml) (s : List Char) : Take Toml :=
  match skipSpaces s with
  | '\x7d' :: rest => some (.table [], rest)
  | s =>
      (readPairs readItem (s.length + 1) s).bind fun step =>
        (entriesOfPairs step.1).map fun entries => (.table (entriesValue entries), step.2)

def readValue : Nat → List Char → Take Toml
  | 0, s => readScalar s
  | depth + 1, s =>
      match s with
      | '[' :: rest =>
          (readItems (readValue depth) (rest.length + 1) rest).map fun step =>
            (.array step.1, step.2)
      | '\x7b' :: rest => readInlineTable (readValue depth) rest
      | s => readScalar s

end Rubric.Toml
