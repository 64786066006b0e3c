import Rubric.Engine
import Rubric.Proofs.LoggedFold

/-!
Detectors that rules do not ask for. Each detector says twice whether it is active: to the engine,
which skips it when it is not, and in its own check. The two agree in that a skipped detector
would have found nothing, so a check is the concatenation of all its detectors' findings.
-/
namespace Rubric

namespace Check

variable (submission : Submission) (rules : Rules)

/-- Nothing is missing from an empty list, so it is as good as an absent one. -/
theorem expectedFunctions_eq_nil
    (h : rules.expectedFunctions = none ∨ rules.expectedFunctions = some []) :
    expectedFunctions submission rules = [] := by
  unfold expectedFunctions
  rcases h with h | h
  · rw [h]
  · rw [h]
    rfl

/-- Findings on declarations, with a kind that is allowed contributing none. -/
theorem validDeclarations_eq_flatMap :
    validDeclarations submission rules = DeclarationKind.all.flatMap fun kind =>
      if rules.allowsDeclaration kind then []
      else declarationsOf submission (declarationKeywords submission) kind := by
  unfold validDeclarations
  split
  · rw [Logged.log_fold_unit, List.flatMap_map]
    congr 1
    funext kind
    split <;> rfl
  · next hnone =>
    have hallows (kind : DeclarationKind) : rules.allowsDeclaration kind = true := by
      simp only [Bool.not_eq_true, Option.isSome_eq_false_iff, Option.isNone_iff_eq_none] at hnone
      simp only [Rules.allowsDeclaration, hnone]
    simp [hallows]

end Check

namespace Detector

variable (submission : Submission) (rules : Rules)

theorem expected_of_not_applies (h : expectedFunctions.applies rules = false) :
    rules.expectedFunctions = none ∨ rules.expectedFunctions = some [] := by
  cases hnames : rules.expectedFunctions with
  | none => exact Or.inl rfl
  | some names => simpa [applies, hnames] using h

theorem detect_of_not_applies (detector : Detector) (h : detector.applies rules = false) :
    detector.detect submission rules = [] := by
  cases detector with
  | expectedFunctions =>
    exact Check.expectedFunctions_eq_nil submission rules (expected_of_not_applies rules h)
  | validDeclarations =>
    simp only [applies] at h
    simp [detect, Check.validDeclarations, h]
  | noReassignment =>
    simp only [applies] at h
    simp [detect, Check.noReassignment, h]
  | noLoops =>
    simp only [applies] at h
    simp [detect, Check.noLoops, h]
  | noIfStatements =>
    simp only [applies] at h
    simp [detect, Check.noIfStatements, h]
  | noConsole =>
    simp only [applies] at h
    simp [detect, Check.noConsole, h]
  | noHelperFunctions =>
    simp only [applies] at h
    simp [detect, Check.noHelperFunctions, h]
  | allowedImports =>
    simp only [applies, Option.isSome_eq_false_iff, Option.isNone_iff_eq_none] at h
    simp [detect, Check.allowedImports, h]

end Detector

namespace Engine

variable (submission : Submission) (rules : Rules)

theorem log_step (detector : Detector) :
    (step submission rules detector ()).log = detector.detect submission rules := by
  unfold step
  by_cases happlies : detector.applies rules = true
  · rw [if_pos happlies]
  · rw [if_neg happlies]
    exact (Detector.detect_of_not_applies submission rules detector
      (Bool.eq_false_iff.mpr happlies)).symm

/-- Skipping makes no difference to what is found. -/
theorem check_eq_flatMap (engine : Engine) :
    engine.check submission rules =
      engine.detectors.flatMap fun detector => detector.detect submission rules := by
  rw [check, Logged.log_fold_unit, List.flatMap_map]
  exact congrArg (List.flatMap · engine.detectors) (funext (log_step submission rules))

theorem mem_check (engine : Engine) (finding : Finding) :
    finding ∈ engine.check submission rules ↔
      ∃ detector ∈ engine.detectors, finding ∈ detector.detect submission rules := by
  rw [check_eq_flatMap, List.mem_flatMap]

/-- A check of any detectors, in any order and number, is the concatenation of what each finds,
active or not. -/
theorem check_concatenates_detectors (detectors : List Detector) :
    check ⟨detectors⟩ submission rules =
        detectors.flatMap (fun detector => detector.detect submission rules) ∧
      (∀ detector : Detector, detector.applies rules = false →
        ∀ other : Submission, detector.detect other rules = []) ∧
      ∀ left right : List Detector,
        check ⟨left ++ right⟩ submission rules =
          check ⟨left⟩ submission rules ++ check ⟨right⟩ submission rules := by
  refine ⟨check_eq_flatMap submission rules ⟨detectors⟩, ?_, ?_⟩
  · intro detector h other
    exact Detector.detect_of_not_applies other rules detector h
  · intro left right
    simp only [check_eq_flatMap, List.flatMap_append]

/-- A loop is found as often as its detector runs. With an empty list of expected functions the
detector between is inactive and would have found nothing. -/
theorem check_concatenates_detectors_none_expected :
    let loop : Grammar.Tree := .node ⟨"while_statement", true, false, none, ⟨0, 12⟩⟩ []
    let submission := Submission.ofParse "while (x) \x7b\x7d"
      ⟨.node ⟨"program", true, false, none, ⟨0, 12⟩⟩ [loop], false⟩
    let rules : Rules := { expectedFunctions := some [], disallow := some [.loops] }
    let found := Finding.at (.loop "while (x) \x7b\x7d") ⟨0, 12⟩
    Detector.noLoops.applies rules = true ∧ Detector.expectedFunctions.applies rules = false ∧
      Detector.expectedFunctions.detect submission rules = [] ∧
      check ⟨[.noLoops, .expectedFunctions, .noLoops]⟩ submission rules = [found, found] ∧
      check ⟨[.noLoops]⟩ submission rules ++
        check ⟨[.expectedFunctions, .noLoops]⟩ submission rules = [found, found] := by
  intro loop submission rules found
  obtain ⟨hfound, hinactive, happend⟩ := check_concatenates_detectors submission rules
    [.noLoops, .expectedFunctions, .noLoops]
  have hdetect : Detector.noLoops.detect submission rules = [found] := by decide +kernel
  have hnone := hinactive .expectedFunctions rfl submission
  have hboth : check ⟨[.noLoops, .expectedFunctions, .noLoops]⟩ submission rules =
      [found, found] := by
    rw [hfound]
    simp [hdetect, hnone]
  have hsplit := happend [.noLoops] [.expectedFunctions, .noLoops]
  exact ⟨rfl, rfl, hnone, hboth, hsplit.symm.trans hboth⟩

end Engine

end Rubric
