import Rubric.Json.Literal
import Rubric.Json.Numeral

/-!
Reading JSON. Lists and objects share one way of walking through bracketed items, and nesting is
bounded by a budget that also makes the recursion structural.
-/
namespace Rubric.Json

open Text

def isBlank (c : Char) : Bool := c = ' ' || c = '\n' || c = '\t' || c = '\r'

def skipBlanks (s : List Char) : List Char := s.dropWhile isBlank

def readWord {α : Type} (value : α) : List Char → List Char → Read α
  | [], s => .ok (value, s)
  | _ :: _, [] => .error (.at .endInValue [])
  | c :: cs, d :: s => if c = d then readWord value cs s else .error (.at .wordBroken (d :: s))

/-- How a kind of bracketed list ends, and what is reported when it does not. -/
structure Brackets where
  close : Char
  unfinished : Cause
  separatorWanted : Cause

def Brackets.list : Brackets := ⟨']', .endInList, .listSeparatorWanted⟩

def Brackets.object : Brackets := ⟨'\x7d', .endInObject, .objectSeparatorWanted⟩

inductive Next where
  | item (s : List Char)
  | done (rest : List Char)

/-- Finds the next item. Items after the first follow a comma, and a comma is followed by one. -/
def Brackets.next (brackets : Brackets) (first : Bool) (s : List Char) : Except Fault Next :=
  match skipBlanks s with
  | [] => .error (.at brackets.unfinished [])
  | c :: rest =>
      if c = brackets.close then .ok (.done rest)
      else if first then .ok (.item (c :: rest))
      else if c = ',' then
        match skipBlanks rest with
        | [] => .error (.at .endInValue [])
        | d :: rest =>
            if d = brackets.close then .error (.at .trailingComma (d :: rest))
            else .ok (.item (d :: rest))
      else .error (.at brackets.separatorWanted (c :: rest))

/-- All items up to the closing bracket. Each consumes a character, so the length of the text is
fuel enough. -/
def Brackets.items {α : Type} (brackets : Brackets) (item : List Char → Read α) :
    Nat → Bool → List Char → Read (List α)
  | 0, _, _ => .error (.at brackets.unfinished [])
  | fuel + 1, first, s =>
      match brackets.next first s with
      | .error fault => .error fault
      | .ok (.done rest) => .ok ([], rest)
      | .ok (.item s) =>
          match item s with
          | .error fault => .error fault
          | .ok (x, s) =>
              match brackets.items item fuel false s with
              | .error fault => .error fault
              | .ok (xs, s) => .ok (x :: xs, s)

def readKey (s : List Char) : Read String :=
  match s with
  | '"' :: rest => readString rest
  | _ => .error (.at .keyNotString s)

def readColon (s : List Char) : Read Unit :=
  match skipBlanks s with
  | ':' :: rest => .ok ((), rest)
  | [] => .error (.at .endInObject [])
  | rest => .error (.at .colonWanted rest)

def readMember (value : List Char → Read Json) (s : List Char) : Read (String × Json) :=
  match readKey s with
  | .error fault => .error fault
  | .ok (name, s) =>
      match readColon s with
      | .error fault => .error fault
      | .ok (_, s) =>
          match value s with
          | .error fault => .error fault
          | .ok (v, s) => .ok ((name, v), s)

/-- A value with at most `depth` levels of brackets. -/
def readValue (depth : Nat) (s : List Char) : Read Json :=
  match skipBlanks s with
  | [] => .error (.at .endInValue [])
  | c :: rest =>
      if c = '"' then (readString rest).map fun step => (.string step.1, step.2)
      else if c = '[' then
        match depth with
        | 0 => .error (.at .tooDeep (c :: rest))
        | depth + 1 =>
            (Brackets.list.items (readValue depth) (rest.length + 1) true rest).map
              fun step => (.array step.1, step.2)
      else if c = '\x7b' then
        match depth with
        | 0 => .error (.at .tooDeep (c :: rest))
        | depth + 1 =>
            (Brackets.object.items (readMember (readValue depth)) (rest.length + 1) true rest).map
              fun step => (.object step.1, step.2)
      else if c = 'n' then readWord .null ['u', 'l', 'l'] rest
      else if c = 't' then readWord (.bool true) ['r', 'u', 'e'] rest
      else if c = 'f' then readWord (.bool false) ['a', 'l', 's', 'e'] rest
      else if c = '-' then (readNumber true rest).map fun step => (.number step.1, step.2)
      else if isDigit c then (readNumber false (c :: rest)).map fun step => (.number step.1, step.2)
      else .error (.at .valueWanted (c :: rest))

def depthLimit : Nat := 127

/-- Nothing but blanks may follow a document. -/
def finish {α : Type} (result : α) (s : List Char) : Except Fault α :=
  match skipBlanks s with
  | [] => .ok result
  | rest => .error (.at .trailingCharacters rest)

def parse (text : List Char) : Except Fault Json :=
  match readValue depthLimit text with
  | .error fault => .error fault
  | .ok (v, rest) => finish v rest

end Rubric.Json
