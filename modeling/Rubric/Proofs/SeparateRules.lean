import Rubric.Proofs.FindingTags
import Rubric.Proofs.Strictness

/-!
Rules that do not interfere with each other. Each kind of violation depends on a part of the rules:
one of the three lists, one entry of the disallowed constructs, or, for helper functions, an entry
and the list of expected names. The detector that reports the kind reads no other part, and no
other detector adds to its findings or takes from them.
-/
namespace Rubric

open Grammar

namespace Rules

def DisallowAlike (left right : Rules) (construct : Construct) : Prop :=
  construct ∈ left.disallow.getD [] ↔ construct ∈ right.disallow.getD []

/-- Rules that agree on the part that a kind of violation depends on. -/
def AgreeOn (left right : Rules) : Violation.Tag → Prop
  | .missingExpectedFunction => left.expectedFunctions = right.expectedFunctions
  | .disallowedDeclarations => left.validDeclarations = right.validDeclarations
  | .disallowedReassignment => left.DisallowAlike right .reassignment
  | .disallowedLoops => left.DisallowAlike right .loops
  | .disallowedIfStatements => left.DisallowAlike right .ifStatements
  | .disallowedConsole => left.DisallowAlike right .console
  | .disallowedHelperFunctions =>
      left.expectedFunctions = right.expectedFunctions ∧ left.DisallowAlike right .helperFunctions
  | .disallowedImport => left.allowedImports = right.allowedImports

theorem DisallowAlike.disallows_eq {left right : Rules} {construct : Construct}
    (h : left.DisallowAlike right construct) :
    left.disallows construct = right.disallows construct := by
  rw [Bool.eq_iff_iff, Rules.disallows_eq, Rules.disallows_eq, List.contains_iff_mem,
    List.contains_iff_mem]
  exact h

end Rules

namespace Check

variable (submission : Submission)

/-- Findings that are asked for by one entry of the disallowed constructs. -/
theorem ite_disallows_congr {left right : Rules} {construct : Construct}
    (h : left.DisallowAlike right construct) (findings : List Finding) :
    (if left.disallows construct then findings else []) =
      if right.disallows construct then findings else [] := by
  rw [h.disallows_eq]

theorem validDeclarations_congr (left right : Rules)
    (h : left.validDeclarations = right.validDeclarations) :
    validDeclarations submission left = validDeclarations submission right := by
  have hallows : left.allowsDeclaration = right.allowsDeclaration := by
    funext kind
    unfold Rules.allowsDeclaration
    rw [h]
  rw [validDeclarations_eq_flatMap, validDeclarations_eq_flatMap, hallows]

theorem noHelperFunctions_congr (left right : Rules)
    (hexpected : left.expectedFunctions = right.expectedFunctions)
    (hdisallow : left.DisallowAlike right .helperFunctions) :
    noHelperFunctions submission left = noHelperFunctions submission right := by
  unfold noHelperFunctions
  rw [isHelper_congr submission left right hexpected, hexpected, hdisallow.disallows_eq]

end Check

/-- A detector reads only the part of the rules that its kind of violation depends on. -/
theorem Detector.detect_congr (submission : Submission) (detector : Detector)
    (left right : Rules) (h : left.AgreeOn right detector.tag) :
    detector.detect submission left = detector.detect submission right := by
  cases detector with
  | expectedFunctions =>
    have hexpected : left.expectedFunctions = right.expectedFunctions := h
    simp only [detect, Check.expectedFunctions, hexpected]
  | validDeclarations => exact Check.validDeclarations_congr submission left right h
  | noReassignment => exact Check.ite_disallows_congr h _
  | noLoops => exact Check.ite_disallows_congr h _
  | noIfStatements => exact Check.ite_disallows_congr h _
  | noConsole => exact Check.ite_disallows_congr h _
  | noHelperFunctions => exact Check.noHelperFunctions_congr submission left right h.1 h.2
  | allowedImports =>
    have himports : left.allowedImports = right.allowedImports := h
    simp only [detect, Check.allowedImports, himports]

/-- Rules that agree on what a kind of violation depends on have the same findings of that kind,
in the same order, whatever else they ask for. -/
theorem Engine.findings_of_tag_depend_on_own_part (submission : Submission)
    (tag : Violation.Tag) (left right : Rules) (h : left.AgreeOn right tag) :
    Finding.tagged tag (standard.check submission left) =
      Finding.tagged tag (standard.check submission right) := by
  rw [← Detector.tag_ofTag tag] at h ⊢
  rw [tagged_standard_check, tagged_standard_check]
  exact (Detector.ofTag tag).detect_congr submission left right h

/-- A loop that assigns to the console, under rules that agree on loops and on nothing else. -/
theorem Engine.findings_of_tag_depend_on_own_part_loop :
    let rule (kind : String) (field : Option String) (start stop : Nat) : List Tree → Tree :=
      .node ⟨kind, true, false, field, ⟨start, stop⟩⟩
    let assignment := rule "assignment_expression" none 10 21
      [rule "identifier" (some "left") 10 17 [], .node ⟨"=", false, false, none, ⟨18, 19⟩⟩ [],
        rule "number" (some "right") 20 21 []]
    let submission := Submission.ofParse "while (x) console = 1"
      ⟨rule "program" none 0 21 [rule "while_statement" none 0 21 [assignment]], false⟩
    let left : Rules := { disallow := some [.loops] }
    let right : Rules :=
      { expectedFunctions := some ["f"], validDeclarations := some [], allowedImports := some [],
        disallow := some [.console, .loops, .reassignment, .loops] }
    left.AgreeOn right .disallowedLoops ∧
      (standard.check submission left).length = 1 ∧
      (standard.check submission right).length = 4 ∧
      Finding.tagged .disallowedLoops (standard.check submission left) =
        Finding.tagged .disallowedLoops (standard.check submission right) := by
  intro rule assignment submission left right
  have hagree : left.AgreeOn right .disallowedLoops := by
    simp [Rules.AgreeOn, Rules.DisallowAlike, left, right]
  exact ⟨hagree, by decide +kernel, by decide +kernel,
    findings_of_tag_depend_on_own_part submission .disallowedLoops left right hagree⟩

end Rubric
