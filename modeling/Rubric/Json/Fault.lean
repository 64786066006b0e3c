import Rubric.Text.Position

/-!
What can be wrong with a JSON text, and where. A fault records how many bytes are left after the
offending one, so that a reader working on the rest of the text can report it without knowing
what came before.
-/
namespace Rubric.Json

open Text

inductive Cause where
  | endInValue
  | endInList
  | endInObject
  | endInString
  | valueWanted
  | wordBroken
  | colonWanted
  | listSeparatorWanted
  | objectSeparatorWanted
  | trailingComma
  | keyNotString
  | trailingCharacters
  | invalidNumber
  | numberOutOfRange
  | invalidEscape
  | loneSurrogate
  | surrogateCutShort
  | controlCharacter
  | tooDeep
deriving Repr, DecidableEq

def Cause.message : Cause → String
  | endInValue => "EOF while parsing a value"
  | endInList => "EOF while parsing a list"
  | endInObject => "EOF while parsing an object"
  | endInString => "EOF while parsing a string"
  | valueWanted => "expected value"
  | wordBroken => "expected ident"
  | colonWanted => "expected `:`"
  | listSeparatorWanted => "expected `,` or `]`"
  | objectSeparatorWanted => "expected `,` or `\x7d`"
  | trailingComma => "trailing comma"
  | keyNotString => "key must be a string"
  | trailingCharacters => "trailing characters"
  | invalidNumber => "invalid number"
  | numberOutOfRange => "number out of range"
  | invalidEscape => "invalid escape"
  | loneSurrogate => "lone leading surrogate in hex escape"
  | surrogateCutShort => "unexpected end of hex escape"
  | controlCharacter => "control character (\\u0000-\\u001F) found while parsing a string"
  | tooDeep => "recursion limit exceeded"

structure Fault where
  cause : Cause
  left : Nat
deriving Repr, DecidableEq

/-- A fault at the first byte of the rest, or at the end of the text when nothing is left. -/
def Fault.at (cause : Cause) (rest : List Char) : Fault := ⟨cause, byteLength rest - 1⟩

/-- A fault noticed once everything before the rest has been consumed. -/
def Fault.before (cause : Cause) (rest : List Char) : Fault := ⟨cause, byteLength rest⟩

def Fault.position (fault : Fault) (text : List Char) : Position :=
  Position.afterBytes (byteLength text - fault.left) text

def Fault.describe (fault : Fault) (text : List Char) : String :=
  let position := fault.position text
  fault.cause.message ++ " at line " ++ toString position.line ++ " column " ++
    toString position.column

/-- A step of a reader: a result with the rest of the text, or a fault. -/
abbrev Read (α : Type) := Except Fault (α × List Char)

end Rubric.Json
