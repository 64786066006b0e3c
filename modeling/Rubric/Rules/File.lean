import Rubric.Files.Tree
import Rubric.Rules.Load

/-!
Rules from a file. The extension of the path picks the format.
-/
namespace Rubric.Rules

inductive FileError where
  | unreadable (path : Path) (fault : Files.Fault)
  | text (error : TextError)
deriving Repr, DecidableEq

def FileError.message : FileError → String
  | unreadable path fault =>
      "Failed to read rules file " ++ path.text ++ ": " ++ fault.message
  | text error => error.message

def Format.load (format : Format) (files : Files) (path : Path) : Except FileError Rules :=
  match files.readText path with
  | .error fault => .error (.unreadable path fault)
  | .ok content =>
      match format.parse content with
      | .error error => .error (.text error)
      | .ok rules => .ok rules

/-- A document whose extension is not that of TOML is read as JSON. -/
def ofFile (files : Files) (path : Path) : Except FileError Rules :=
  if path.extension? = some ['t', 'o', 'm', 'l'] then Format.toml.load files path
  else Format.json.load files path

def Format.ofPath? (path : Path) : Option Format :=
  match path.extension? with
  | some ['j', 's', 'o', 'n'] => some .json
  | some ['t', 'o', 'm', 'l'] => some .toml
  | _ => none

end Rubric.Rules
