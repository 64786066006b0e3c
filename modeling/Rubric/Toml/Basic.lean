import Rubric.Decimal.Shortest
import Rubric.Toml.Moment

/-!
TOML values, and the character classes that their texts are made of. Readers take from the front
of a text and give up without a reason, since a document is either accepted or refused.
-/
namespace Rubric

inductive Toml where
  | string (value : String)
  | integer (value : Int)
  | real (value : Decimal.Binary64)
  | boolean (value : Bool)
  | moment (value : Toml.Moment)
  | array (items : List Toml)
  | table (entries : List (String × Toml))
deriving Repr

namespace Toml

/-- A step of a reader: a result with the rest of the text. -/
abbrev Take (α : Type) := Option (α × List Char)

/-- Characters of comments: anything but controls, of which only the tab is allowed. -/
def isPlain (c : Char) : Bool := c = '\t' || (' ' ≤ c && c ≤ '~') || '\x7f' < c

def isSpace (c : Char) : Bool := c = ' ' || c = '\t'

def skipSpaces (s : List Char) : List Char := s.dropWhile isSpace

def newline? : List Char → Option (List Char)
  | '\n' :: rest => some rest
  | '\r' :: '\n' :: rest => some rest
  | _ => none

/-- Skips blanks, line breaks and comments, starting inside a comment or outside. -/
def skipTrivia : Bool → List Char → List Char
  | _, [] => []
  | inComment, c :: rest =>
      if inComment && isPlain c then skipTrivia true rest
      else if isSpace c || c = '\n' then skipTrivia false rest
      else if c = '#' then skipTrivia true rest
      else
        match c, rest with
        | '\r', '\n' :: rest => skipTrivia false rest
        | c, rest => c :: rest

def expect (c : Char) : List Char → Option (List Char)
  | d :: rest => if c = d then some rest else none
  | [] => none

end Toml

end Rubric
