import Mathlib.Data.List.Basic
import Mathlib.Data.List.Flatten
import Rubric.Proofs.AllowedNames
import Rubric.Proofs.DetectorActivity

/-!
Stricter rules find more. Rules are stricter when they disallow more constructs and list fewer
valid declarations and fewer allowed imports, where listing nothing at all imposes nothing. Each
check then keeps its findings in their order, so the whole check does. Rules whose lists have the
same entries are as strict as each other, so order and repetition do not matter.
-/
namespace Rubric

namespace Rules

/-- An optional list of what is allowed that leaves no more than another. -/
def Narrows {α : Type} (strict lax : Option (List α)) : Prop :=
  lax = none ∨ ∃ fewer more, strict = some fewer ∧ lax = some more ∧ fewer ⊆ more

/-- Rules that ask for no less than others, expected functions apart. -/
structure AtLeastAsStrict (strict lax : Rules) : Prop where
  disallow : lax.disallow.getD [] ⊆ strict.disallow.getD []
  validDeclarations : Narrows strict.validDeclarations lax.validDeclarations
  allowedImports : Narrows strict.allowedImports lax.allowedImports

/-- Rules that differ only in the order and number of entries, expected functions apart. -/
structure SameEntries (left right : Rules) : Prop where
  disallow : Option.Rel (fun xs ys => ∀ x, x ∈ xs ↔ x ∈ ys) left.disallow right.disallow
  validDeclarations : Option.Rel (fun xs ys => ∀ x, x ∈ xs ↔ x ∈ ys)
    left.validDeclarations right.validDeclarations
  allowedImports : Option.Rel (fun xs ys => ∀ x, x ∈ xs ↔ x ∈ ys)
    left.allowedImports right.allowedImports

theorem disallows_eq (rules : Rules) (construct : Construct) :
    rules.disallows construct = (rules.disallow.getD []).contains construct := by
  unfold disallows
  cases rules.disallow <;> rfl

theorem AtLeastAsStrict.disallows {strict lax : Rules} (h : strict.AtLeastAsStrict lax)
    (construct : Construct) (hlax : lax.disallows construct = true) :
    strict.disallows construct = true := by
  rw [disallows_eq, List.contains_iff_mem] at hlax ⊢
  exact h.disallow hlax

theorem AtLeastAsStrict.allowsDeclaration {strict lax : Rules} (h : strict.AtLeastAsStrict lax)
    (kind : DeclarationKind) (hstrict : strict.allowsDeclaration kind = true) :
    lax.allowsDeclaration kind = true := by
  unfold Rules.allowsDeclaration at hstrict ⊢
  rcases h.validDeclarations with hnone | ⟨fewer, more, hfewer, hmore, hsubset⟩
  · rw [hnone]
  · rw [hfewer] at hstrict
    rw [hmore]
    simp only [List.contains_iff_mem] at hstrict ⊢
    exact hsubset hstrict

theorem narrows_of_rel {α : Type} (left right : Option (List α))
    (h : Option.Rel (fun xs ys => ∀ x, x ∈ xs ↔ x ∈ ys) left right) :
    Narrows left right ∧ Narrows right left := by
  cases h with
  | none => exact ⟨Or.inl rfl, Or.inl rfl⟩
  | @some xs ys hsame =>
    exact ⟨Or.inr ⟨xs, ys, rfl, rfl, fun x hx => (hsame x).mp hx⟩,
      Or.inr ⟨ys, xs, rfl, rfl, fun x hx => (hsame x).mpr hx⟩⟩

theorem getD_subset_of_rel {α : Type} (left right : Option (List α))
    (h : Option.Rel (fun xs ys => ∀ x, x ∈ xs ↔ x ∈ ys) left right) :
    left.getD [] ⊆ right.getD [] ∧ right.getD [] ⊆ left.getD [] := by
  cases h with
  | none => exact ⟨List.Subset.refl _, List.Subset.refl _⟩
  | some hsame => exact ⟨fun x hx => (hsame x).mp hx, fun x hx => (hsame x).mpr hx⟩

/-- Rules with the same entries are as strict as each other. -/
theorem SameEntries.atLeastAsStrict {left right : Rules} (h : left.SameEntries right) :
    left.AtLeastAsStrict right ∧ right.AtLeastAsStrict left := by
  have hdeclarations := narrows_of_rel _ _ h.validDeclarations
  have himports := narrows_of_rel _ _ h.allowedImports
  have hdisallow := getD_subset_of_rel _ _ h.disallow
  exact ⟨⟨hdisallow.2, hdeclarations.1, himports.1⟩, ⟨hdisallow.1, hdeclarations.2, himports.2⟩⟩

end Rules

namespace Check

variable (submission : Submission)

/-- Findings that depend on rules only through a condition. -/
theorem sublist_of_imp (lax strict : Bool) (findings : List Finding)
    (h : lax = true → strict = true) :
    (if lax then findings else []).Sublist (if strict then findings else []) := by
  by_cases hlax : lax = true
  · rw [if_pos hlax, if_pos (h hlax)]
  · rw [if_neg hlax]
    exact List.nil_sublist _

theorem validDeclarations_sublist (lax strict : Rules) (h : strict.AtLeastAsStrict lax) :
    (validDeclarations submission lax).Sublist (validDeclarations submission strict) := by
  rw [validDeclarations_eq_flatMap, validDeclarations_eq_flatMap]
  apply List.Sublist.flatMap_right
  intro kind _
  by_cases hlax : lax.allowsDeclaration kind = true
  · rw [if_pos hlax]
    exact List.nil_sublist _
  · have hstrict : ¬ strict.allowsDeclaration kind = true :=
      fun hallows => hlax (h.allowsDeclaration kind hallows)
    rw [if_neg hlax, if_neg hstrict]

/-- Helpers are told by the expected functions alone. -/
theorem isHelper_congr (left right : Rules)
    (h : left.expectedFunctions = right.expectedFunctions) :
    isHelper submission left = isHelper submission right := by
  funext i
  unfold isHelper Rules.expectsFunction
  rw [h]

theorem noHelperFunctions_sublist (lax strict : Rules)
    (hexpected : lax.expectedFunctions = strict.expectedFunctions)
    (h : strict.AtLeastAsStrict lax) :
    (noHelperFunctions submission lax).Sublist (noHelperFunctions submission strict) := by
  unfold noHelperFunctions
  rw [isHelper_congr submission lax strict hexpected, hexpected]
  apply sublist_of_imp
  intro hlax
  rw [Bool.and_eq_true] at hlax ⊢
  exact ⟨hlax.1, h.disallows .helperFunctions hlax.2⟩

/-- A statement refused under more patterns is refused in the same words under fewer. -/
theorem importFinding?_of_subset (fewer more : List String) (hsubset : fewer ⊆ more)
    (statement : Nat) (finding : Finding)
    (h : importFinding? submission (Imports.AllowList.ofPatterns more) statement =
      some finding) :
    importFinding? submission (Imports.AllowList.ofPatterns fewer) statement =
      some finding := by
  unfold importFinding? at h ⊢
  split at h
  · simp at h
  · next source hsource =>
    dsimp only at h ⊢
    split at h
    · simp at h
    · next hmore =>
      rw [if_neg]
      · exact h
      · intro hfewer
        exact hmore (Imports.allows_mono _ _ fewer more hsubset hfewer)

theorem allowedImports_sublist (lax strict : Rules) (h : strict.AtLeastAsStrict lax) :
    (allowedImports submission lax).Sublist (allowedImports submission strict) := by
  unfold allowedImports
  rcases h.allowedImports with hnone | ⟨fewer, more, hfewer, hmore, hsubset⟩
  · rw [hnone]
    exact List.nil_sublist _
  · rw [hfewer, hmore]
    simp only [List.filterMap_eq_flatMap_toList]
    apply List.Sublist.flatMap_right
    intro statement _
    cases hfinding : importFinding? submission (Imports.AllowList.ofPatterns more) statement with
    | none => exact List.nil_sublist _
    | some finding =>
      rw [importFinding?_of_subset submission fewer more hsubset statement finding hfinding]

end Check

theorem Detector.detect_sublist (submission : Submission) (detector : Detector)
    (lax strict : Rules) (hexpected : lax.expectedFunctions = strict.expectedFunctions)
    (h : strict.AtLeastAsStrict lax) :
    (detector.detect submission lax).Sublist (detector.detect submission strict) := by
  cases detector with
  | expectedFunctions =>
    simp only [detect, Check.expectedFunctions, hexpected]
    exact List.Sublist.refl _
  | validDeclarations => exact Check.validDeclarations_sublist submission lax strict h
  | noReassignment => exact Check.sublist_of_imp _ _ _ (h.disallows .reassignment)
  | noLoops => exact Check.sublist_of_imp _ _ _ (h.disallows .loops)
  | noIfStatements => exact Check.sublist_of_imp _ _ _ (h.disallows .ifStatements)
  | noConsole => exact Check.sublist_of_imp _ _ _ (h.disallows .console)
  | noHelperFunctions =>
    exact Check.noHelperFunctions_sublist submission lax strict hexpected h
  | allowedImports => exact Check.allowedImports_sublist submission lax strict h

theorem Engine.check_sublist (submission : Submission) (engine : Engine) (lax strict : Rules)
    (hexpected : lax.expectedFunctions = strict.expectedFunctions)
    (h : strict.AtLeastAsStrict lax) :
    (engine.check submission lax).Sublist (engine.check submission strict) := by
  rw [check_eq_flatMap, check_eq_flatMap]
  apply List.Sublist.flatMap_right
  intro detector _
  exact detector.detect_sublist submission lax strict hexpected h

/-- Rules at least as strict keep every finding, in order, and rules with the same entries have
the same findings. -/
theorem Engine.check_monotone_in_strictness (submission : Submission)
    (detectors : List Detector) :
    (∀ lax strict : Rules, lax.expectedFunctions = strict.expectedFunctions →
      strict.AtLeastAsStrict lax →
      (Engine.check ⟨detectors⟩ submission lax).Sublist
        (Engine.check ⟨detectors⟩ submission strict)) ∧
    ∀ left right : Rules, left.expectedFunctions = right.expectedFunctions →
      left.SameEntries right →
      Engine.check ⟨detectors⟩ submission left = Engine.check ⟨detectors⟩ submission right := by
  refine ⟨check_sublist submission ⟨detectors⟩, ?_⟩
  intro left right hexpected hsame
  obtain ⟨hleft, hright⟩ := hsame.atLeastAsStrict
  exact List.Sublist.antisymm
    (check_sublist submission ⟨detectors⟩ left right hexpected hright)
    (check_sublist submission ⟨detectors⟩ right left hexpected.symm hleft)

/-- Rules made stricter in every part, and then written in another order with repetitions. -/
theorem Engine.check_monotone_in_strictness_reordered :
    let submission := Submission.ofParse "while (x) {}"
      ⟨.node ⟨"program", true, false, none, ⟨0, 12⟩⟩
        [.node ⟨"while_statement", true, false, none, ⟨0, 12⟩⟩ []], false⟩
    let detectors := [Detector.noLoops, .allowedImports, .noLoops]
    let lax : Rules :=
      { validDeclarations := some [.constDecl, .letDecl]
        allowedImports := some ["effect.pipe", "fs"] }
    let strict : Rules :=
      { validDeclarations := some [.constDecl]
        allowedImports := some ["fs"]
        disallow := some [.loops, .console] }
    let reordered : Rules :=
      { validDeclarations := some [.constDecl, .constDecl]
        allowedImports := some ["fs", "fs"]
        disallow := some [.console, .loops, .console] }
    strict.AtLeastAsStrict lax ∧ strict.SameEntries reordered ∧
      (Engine.check ⟨detectors⟩ submission lax).Sublist
        (Engine.check ⟨detectors⟩ submission strict) ∧
      Engine.check ⟨detectors⟩ submission strict =
        Engine.check ⟨detectors⟩ submission reordered := by
  intro submission detectors lax strict reordered
  have hstrict : strict.AtLeastAsStrict lax := by
    refine ⟨List.nil_subset _, Or.inr ⟨_, _, rfl, rfl, ?_⟩, Or.inr ⟨_, _, rfl, rfl, ?_⟩⟩
    · simp
    · simp
  have hsame : strict.SameEntries reordered := by
    refine ⟨.some ?_, .some ?_, .some ?_⟩
    · intro construct
      cases construct <;> decide
    · simp
    · simp
  obtain ⟨hmonotone, hreordered⟩ := check_monotone_in_strictness submission detectors
  exact ⟨hstrict, hsame, hmonotone lax strict rfl hstrict,
    hreordered strict reordered rfl hsame⟩

end Rubric
