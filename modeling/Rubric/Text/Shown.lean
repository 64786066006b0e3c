import Rubric.Text.Digits

/-!
Text that is safe to show on a terminal. Characters that start or steer a terminal's control
sequences are written as escapes, everything else stays as it is.
-/
namespace Rubric.Text

/-- Escape, bell, backspace, form feed and delete. -/
def isSteering (c : Char) : Bool :=
  c = '\x1b' || c = '\x07' || c = '\x08' || c = '\x0c' || c = '\x7f'

def isHighControl (c : Char) : Bool := 0x80 ≤ c.toNat && c.toNat ≤ 0x9f

def shownChar (c : Char) : List Char :=
  if isSteering c then ['\\', 'x'] ++ hexPair c.toNat
  else if isHighControl c then ['\\', 'u', '\x7b'] ++ hexPair c.toNat ++ ['\x7d']
  else [c]

def shown (text : String) : String := String.ofList (text.toList.flatMap shownChar)

end Rubric.Text
