import Rubric.Text.Escape
import Rubric.Toml.Basic

/-!
String literals of TOML: basic ones with escapes, literal ones without, and both forms over
several lines, where up to two quotes may stand next to each other inside.
-/
namespace Rubric.Toml

open Text

def hexNumber (value : Nat) : Nat → List Char → Take Nat
  | 0, s => some (value, s)
  | _ + 1, [] => none
  | count + 1, c :: rest =>
      match hexValue? c with
      | some digit => hexNumber (value * 16 + digit) count rest
      | none => none

def charOf? (code : Nat) : Option Char :=
  if code.isValidChar then some (Char.ofNat code) else none

def codeEscape (digits : Nat) (s : List Char) : Take Char :=
  (hexNumber 0 digits s).bind fun step => (charOf? step.1).map fun c => (c, step.2)

def readEscape : List Char → Take Char
  | 'b' :: rest => some ('\x08', rest)
  | 'f' :: rest => some ('\x0c', rest)
  | 'n' :: rest => some ('\n', rest)
  | 'r' :: rest => some ('\r', rest)
  | 't' :: rest => some ('\t', rest)
  | '"' :: rest => some ('"', rest)
  | '\\' :: rest => some ('\\', rest)
  | 'u' :: rest => codeEscape 4 rest
  | 'U' :: rest => codeEscape 8 rest
  | _ => none

/-- A basic string after its opening quote. Each step consumes a character, so the length of the
text is fuel enough. -/
def basicChars : Nat → List Char → List Char → Take (List Char)
  | 0, _, _ => none
  | _ + 1, _, [] => none
  | fuel + 1, read, c :: rest =>
      if c = '"' then some (read.reverse, rest)
      else if c = '\\' then
        match readEscape rest with
        | some (d, rest) => basicChars fuel (d :: read) rest
        | none => none
      else if isPlain c then basicChars fuel (c :: read) rest
      else none

def basicString (s : List Char) : Take String :=
  (basicChars (s.length + 1) [] s).map fun step => (String.ofList step.1, step.2)

def literalString (s : List Char) : Take String :=
  let body := s.span fun c => isPlain c && c != '\x27'
  (expect '\x27' body.2).map fun rest => (String.ofList body.1, rest)

def dropFirstNewline (s : List Char) : List Char := (newline? s).getD s

/-- Blanks and a line break after a backslash, with all blanks and line breaks that follow. -/
def lineContinuation? (s : List Char) : Option (List Char) :=
  (newline? (skipSpaces s)).map fun rest =>
    skipBlankLines rest.length rest
where
  skipBlankLines : Nat → List Char → List Char
    | 0, s => s
    | fuel + 1, s =>
        match newline? (skipSpaces s) with
        | some rest => skipBlankLines fuel rest
        | none => skipSpaces s

/-- Takes a run of quotes. Fewer than three belong to the text, which then goes on. Three close
it, and up to two in front of those still belong to it. -/
def quoteRun (quote : Char) (s : List Char) : (Nat × Bool) × List Char :=
  let count := (s.takeWhile (· = quote)).length
  if count < 3 then ((count, false), s.drop count)
  else
    let inner := min (count - 3) 2
    ((inner, true), s.drop (inner + 3))

/-- A string over several lines after its opening quotes. Only basic ones have escapes. -/
def longChars (quote : Char) (escapes : Bool) : Nat → List Char → List Char → Take (List Char)
  | 0, _, _ => none
  | _ + 1, _, [] => none
  | fuel + 1, read, c :: rest =>
      if c = quote then
        let run := quoteRun quote (c :: rest)
        let read := List.replicate run.1.1 quote ++ read
        if run.1.2 then some (read.reverse, run.2) else longChars quote escapes fuel read run.2
      else if escapes && c = '\\' then
        match lineContinuation? rest with
        | some rest => longChars quote escapes fuel read rest
        | none =>
            match readEscape rest with
            | some (d, rest) => longChars quote escapes fuel (d :: read) rest
            | none => none
      else if isPlain c then longChars quote escapes fuel (c :: read) rest
      else
        match newline? (c :: rest) with
        | some rest => longChars quote escapes fuel ('\n' :: read) rest
        | none => none

def longString (quote : Char) (escapes : Bool) (s : List Char) : Take String :=
  let body := dropFirstNewline s
  (longChars quote escapes (body.length + 1) [] body).map
    fun step => (String.ofList step.1, step.2)

def literal (text : String) : String := String.ofList (literalChars isPlain text)

def readString : List Char → Take String
  | '"' :: '"' :: '"' :: rest => longString '"' true rest
  | '"' :: rest => basicString rest
  | '\x27' :: '\x27' :: '\x27' :: rest => longString '\x27' false rest
  | '\x27' :: rest => literalString rest
  | _ => none

end Rubric.Toml
