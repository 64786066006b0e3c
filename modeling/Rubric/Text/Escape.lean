import Rubric.Text.Digits

/-!
Escapes of string literals. Quotes, backslashes and the usual blanks have escapes of their own; any
other character that may not stand for itself is written by its code point, which is small.
-/
namespace Rubric.Text

def escapeChar (plain : Char → Bool) (c : Char) : List Char :=
  if c = '"' then ['\\', '"']
  else if c = '\\' then ['\\', '\\']
  else if c = '\x08' then ['\\', 'b']
  else if c = '\x0c' then ['\\', 'f']
  else if c = '\n' then ['\\', 'n']
  else if c = '\r' then ['\\', 'r']
  else if c = '\t' then ['\\', 't']
  else if plain c then [c]
  else ['\\', 'u', '0', '0'] ++ hexPair c.toNat

def literalChars (plain : Char → Bool) (text : String) : List Char :=
  '"' :: text.toList.flatMap (escapeChar plain) ++ ['"']

end Rubric.Text
