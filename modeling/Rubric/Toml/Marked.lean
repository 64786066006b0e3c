import Rubric.Toml.Numeral

/-!
Moments in the form of tables. A table whose first key is the mark stands for the moment that the
string under the mark names. Its other entries are not looked at, and without such a string there
is no value.
-/
namespace Rubric.Toml

def momentMark : String := "$__toml_private_datetime"

def Moment.ofText? (text : String) : Option Moment :=
  match readMoment text.toList with
  | some (named, []) => some named
  | _ => none

def markedMoment? : Toml → Option Toml
  | .string text => (Moment.ofText? text).map .moment
  | _ => none

mutual

/-- The value with marked tables replaced by their moments. -/
def unmark : Toml → Option Toml
  | .array items => (unmarkItems items).map .array
  | .table [] => some (.table [])
  | .table ((key, value) :: rest) =>
      if key = momentMark then markedMoment? value
      else
        match unmark value, unmarkEntries rest with
        | some value, some rest => some (.table ((key, value) :: rest))
        | _, _ => none
  | value => some value

def unmarkItems : List Toml → Option (List Toml)
  | [] => some []
  | item :: rest =>
      match unmark item, unmarkItems rest with
      | some item, some rest => some (item :: rest)
      | _, _ => none

def unmarkEntries : List (String × Toml) → Option (List (String × Toml))
  | [] => some []
  | (key, value) :: rest =>
      match unmark value, unmarkEntries rest with
      | some value, some rest => some ((key, value) :: rest)
      | _, _ => none

end

end Rubric.Toml
