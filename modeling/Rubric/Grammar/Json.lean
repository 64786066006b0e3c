import Rubric.Grammar.Tree
import Rubric.Json.Basic

/-!
Parses as JSON, the form in which a grammar's parser hands them over. The nodes are listed in
document order. Each is a list of its depth, its kind, whether it is named and whether it is
missing, its field or null, and the two ends of its span.
-/
namespace Rubric.Grammar

def natOf? : Json → Option Nat
  | .number (.integer n) => if 0 ≤ n then some n.toNat else none
  | _ => none

/-- A truth value may be written as a number, where only zero is false. -/
def flagOf? : Json → Option Bool
  | .bool value => some value
  | .number (.integer n) => some (n != 0)
  | _ => none

def fieldOf : Json → Option String
  | .string name => some name
  | _ => none

def entryOf? : Json → Option (Nat × Label)
  | .array [depth, .string kind, named, missing, field, start, stop] => do
      let depth ← natOf? depth
      let named ← flagOf? named
      let missing ← flagOf? missing
      let start ← natOf? start
      let stop ← natOf? stop
      return (depth, ⟨kind, named, missing, fieldOf field, ⟨start, stop⟩⟩)
  | _ => none

def Parse.fromJson? : Json → Option Parse
  | .object members =>
      match Json.lastMember? members "nodes", Json.lastMember? members "has_error" with
      | some (.array nodes), some (.bool hasErrors) =>
          (nodes.mapM entryOf?).bind fun outline =>
            (Tree.ofOutline? outline).map fun tree => ⟨tree, hasErrors⟩
      | _, _ => none
  | _ => none

end Rubric.Grammar
