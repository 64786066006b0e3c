import Rubric.Rules.Json
import Rubric.Rules.Toml

/-!
Rules from the text of a document. Text that is not in the document's format and a document that
does not fit the schema are different errors.
-/
namespace Rubric.Rules

inductive TextError where
  | malformed (message : String)
  | schema (message : String)
deriving Repr, DecidableEq

def TextError.message : TextError → String
  | malformed message => "Cannot parse rules: " ++ message
  | schema message => "Rules do not match the schema: " ++ message

def ofJsonText (text : String) : Except TextError Rules :=
  match Json.parse text.toList with
  | .error fault => .error (.malformed (fault.describe text.toList))
  | .ok value =>
      match fromJson value with
      | .error mismatch => .error (.schema mismatch.message)
      | .ok rules => .ok rules

def ofTomlText (text : String) : Except TextError Rules :=
  match Toml.parse text.toList with
  | none => .error (.malformed "TOML parse error")
  | some value =>
      match fromToml value with
      | .error mismatch => .error (.schema mismatch.message)
      | .ok rules => .ok rules

inductive Format where
  | json
  | toml
deriving Repr, DecidableEq

def Format.parse : Format → String → Except TextError Rules
  | json => ofJsonText
  | toml => ofTomlText

end Rubric.Rules
