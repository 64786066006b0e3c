import Rubric.Rules.Basic
import Rubric.Schema.Mismatch

/-!
The names that documents use for the variants of rules.
-/
namespace Rubric

open Schema

def DeclarationKind.names : Names DeclarationKind :=
  ⟨all.map keyword, ofKeyword?⟩

def Construct.names : Names Construct :=
  ⟨all.map name, ofName?⟩

end Rubric
