import Rubric.Json.Fault
import Rubric.Text.Escape

/-!
String literals. A text is written between quotes with quotes, backslashes and control
characters escaped. Reading takes one piece of the literal at a time: a character, an escape, or
the closing quote.
-/
namespace Rubric.Json

open Text

/-- Characters that stand for themselves: all but control characters. -/
def isPlain (c : Char) : Bool := ' ' ≤ c

def literal (text : String) : List Char := literalChars isPlain text

def hexValue4? (a b c d : Char) : Option Nat := do
  let a ← hexValue? a
  let b ← hexValue? b
  let c ← hexValue? c
  let d ← hexValue? d
  return ((a * 16 + b) * 16 + c) * 16 + d

/-- The four bytes of a hexadecimal escape. They are consumed whatever they hold, so a wrong one
is reported after the fourth. -/
def hexEscape (s : List Char) : Read Nat :=
  let wrong : Read Nat :=
    if byteLength s < 4 then .error (.at .endInString [])
    else .error ⟨.invalidEscape, byteLength s - 4⟩
  match s with
  | a :: b :: c :: d :: rest =>
      match hexValue4? a b c d with
      | some unit => .ok (unit, rest)
      | none => wrong
  | _ => wrong

def isLeading (unit : Nat) : Bool := 0xD800 ≤ unit && unit ≤ 0xDBFF

def isTrailing (unit : Nat) : Bool := 0xDC00 ≤ unit && unit ≤ 0xDFFF

def ofSurrogates (leading trailing : Nat) : Char :=
  Char.ofNat ((leading - 0xD800) * 0x400 + (trailing - 0xDC00) + 0x10000)

def trailingEscape (leading : Nat) (s : List Char) : Read Char :=
  match hexEscape s with
  | .error fault => .error fault
  | .ok (unit, rest) =>
      if isTrailing unit then .ok (ofSurrogates leading unit, rest)
      else .error (.before .loneSurrogate rest)

/-- The character of a hexadecimal escape; a leading surrogate needs a second escape. -/
def unicodeEscape (s : List Char) : Read Char :=
  match hexEscape s with
  | .error fault => .error fault
  | .ok (unit, rest) =>
      if isTrailing unit then .error (.before .loneSurrogate rest)
      else if isLeading unit then
        match rest with
        | [] => .error (.at .endInString [])
        | ['\\'] => .error (.at .endInString [])
        | '\\' :: 'u' :: rest => trailingEscape unit rest
        | '\\' :: rest => .error (.at .surrogateCutShort rest)
        | rest => .error (.at .surrogateCutShort rest)
      else .ok (Char.ofNat unit, rest)

def readEscape (s : List Char) : Read Char :=
  match s with
  | [] => .error (.at .endInString [])
  | '"' :: rest => .ok ('"', rest)
  | '\\' :: rest => .ok ('\\', rest)
  | '/' :: rest => .ok ('/', rest)
  | 'b' :: rest => .ok ('\x08', rest)
  | 'f' :: rest => .ok ('\x0c', rest)
  | 'n' :: rest => .ok ('\n', rest)
  | 'r' :: rest => .ok ('\r', rest)
  | 't' :: rest => .ok ('\t', rest)
  | 'u' :: rest => unicodeEscape rest
  | rest => .error (.at .invalidEscape rest)

/-- The next character of a string, or none at its closing quote. -/
def piece (s : List Char) : Read (Option Char) :=
  match s with
  | [] => .error (.at .endInString [])
  | '"' :: rest => .ok (none, rest)
  | '\\' :: rest => (readEscape rest).map fun step => (some step.1, step.2)
  | c :: rest =>
      if c.toNat < 32 then .error (.at .controlCharacter (c :: rest)) else .ok (some c, rest)

/-- Characters up to the closing quote. Each piece consumes a character, so the length of the
text is fuel enough. -/
def characters : Nat → List Char → List Char → Read (List Char)
  | 0, _, _ => .error (.at .endInString [])
  | fuel + 1, read, s =>
      match piece s with
      | .error fault => .error fault
      | .ok (none, rest) => .ok (read.reverse, rest)
      | .ok (some c, rest) => characters fuel (c :: read) rest

def readString (s : List Char) : Read String :=
  (characters (s.length + 1) [] s).map fun step => (String.ofList step.1, step.2)

end Rubric.Json
