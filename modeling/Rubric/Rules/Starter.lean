import Rubric.Rules.Load

/-!
The rules document that a new exercise starts from.
-/
namespace Rubric.Rules

/-- Expects one function, allows only constants and any import, and forbids every construct. -/
def starter : Rules where
  expectedFunctions := some ["f"]
  validDeclarations := some [.constDecl]
  allowedImports := some ["*"]
  disallow := some Construct.all

def Format.render : Format → Rules → String
  | json, rules => rules.toJson.pretty ++ "\n"
  | toml, rules => "# rule-enforcer rules\n\n" ++ rules.toToml

end Rubric.Rules
