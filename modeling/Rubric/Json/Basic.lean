import Rubric.Decimal.Shortest

/-!
JSON values. An object keeps its members in document order, repeated keys included; what a
repeated key means is decided by the place that looks members up.
-/
namespace Rubric

open Decimal

namespace Json

/-- Numbers written without a point or an exponent stay exact while they fit a word. -/
inductive Number where
  | integer (value : Int)
  | real (value : Binary64)
deriving Repr, DecidableEq

/-- Positional from `0.00001` up to sixteen places before the point; of two equally near decimals
the even one is taken. -/
def numberLayout : Layout := ⟨.even, some (-4), some 16, ['+']⟩

def Number.text : Number → String
  | integer value => toString value
  | real value => value.text numberLayout

end Json

inductive Json where
  | null
  | bool (value : Bool)
  | number (value : Json.Number)
  | string (value : String)
  | array (items : List Json)
  | object (members : List (String × Json))
deriving Repr

namespace Json

def strings (items : List String) : Json := .array (items.map .string)

def lastMember? (members : List (String × Json)) (key : String) : Option Json :=
  (members.reverse.find? fun member => member.1 == key).map Prod.snd

/-- The members with each key's last value, in the order in which the keys end. -/
def lastMembers (members : List (String × Json)) : List (String × Json) :=
  members.foldr
    (fun member rest =>
      if rest.any fun other => other.1 == member.1 then rest else member :: rest) []

end Json

end Rubric
