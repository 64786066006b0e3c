import Rubric.Proofs.DetectorActivity

/-!
What kind of violation each detector reports. Every detector has a tag of its own, and all its
findings carry it, so the findings of one detector can be told apart in the result of a check.
-/
namespace Rubric

namespace Check

variable (submission : Submission) (rules : Rules)

/-- Findings made from nodes, where rules ask for them. -/
theorem tag_of_mem_nodes (make : String → Violation) (tag : Violation.Tag)
    (hmake : ∀ code, (make code).tag = tag) (active : Bool) (nodes : List Nat)
    (finding : Finding)
    (h : finding ∈ if active then nodes.map (report submission make) else []) :
    finding.violation.tag = tag := by
  split at h
  · obtain ⟨i, -, rfl⟩ := List.mem_map.mp h
    exact hmake (submission.text i)
  · simp at h

theorem tag_of_mem_expectedFunctions (finding : Finding)
    (h : finding ∈ expectedFunctions submission rules) :
    finding.violation.tag = .missingExpectedFunction := by
  unfold expectedFunctions at h
  split at h
  · simp at h
  · obtain ⟨violation, hviolation, rfl⟩ := List.mem_map.mp h
    rw [Option.mem_toList] at hviolation
    unfold Violation.missingFunctions? at hviolation
    split at hviolation
    · simp at hviolation
    · rw [← Option.some.inj hviolation]
      rfl

theorem tag_of_mem_validDeclarations (finding : Finding)
    (h : finding ∈ validDeclarations submission rules) :
    finding.violation.tag = .disallowedDeclarations := by
  rw [validDeclarations_eq_flatMap, List.mem_flatMap] at h
  obtain ⟨kind, -, hkind⟩ := h
  split at hkind
  · simp at hkind
  · obtain ⟨keyword, -, rfl⟩ := List.mem_map.mp hkind
    rfl

theorem tag_of_mem_noReassignment (finding : Finding)
    (h : finding ∈ noReassignment submission rules) :
    finding.violation.tag = .disallowedReassignment := by
  unfold noReassignment at h
  split at h
  · obtain ⟨i, -, hfinding⟩ := List.mem_filterMap.mp h
    obtain ⟨parent, -, rfl⟩ := Option.map_eq_some_iff.mp hfinding
    rfl
  · simp at h

theorem tag_of_mem_noConsole (finding : Finding) (h : finding ∈ noConsole submission rules) :
    finding.violation.tag = .disallowedConsole := by
  unfold noConsole at h
  split at h
  · obtain ⟨i, -, rfl⟩ := List.mem_map.mp h
    rfl
  · simp at h

theorem tag_of_importFinding? (allowed : Imports.AllowList) (statement : Nat) (finding : Finding)
    (h : importFinding? submission allowed statement = some finding) :
    finding.violation.tag = .disallowedImport := by
  unfold importFinding? at h
  split at h
  · simp at h
  · dsimp only at h
    split at h
    · simp at h
    · rw [← Option.some.inj h]
      rfl

theorem tag_of_mem_allowedImports (finding : Finding)
    (h : finding ∈ allowedImports submission rules) :
    finding.violation.tag = .disallowedImport := by
  unfold allowedImports at h
  split at h
  · simp at h
  · obtain ⟨statement, -, hfinding⟩ := List.mem_filterMap.mp h
    exact tag_of_importFinding? submission _ statement finding hfinding

end Check

namespace Detector

def tag : Detector → Violation.Tag
  | expectedFunctions => .missingExpectedFunction
  | validDeclarations => .disallowedDeclarations
  | noReassignment => .disallowedReassignment
  | noLoops => .disallowedLoops
  | noIfStatements => .disallowedIfStatements
  | noConsole => .disallowedConsole
  | noHelperFunctions => .disallowedHelperFunctions
  | allowedImports => .disallowedImport

theorem tag_injective : Function.Injective tag := by
  intro left right h
  cases left <;> cases right <;> simp [tag] at h ⊢

def ofTag : Violation.Tag → Detector
  | .missingExpectedFunction => expectedFunctions
  | .disallowedDeclarations => validDeclarations
  | .disallowedReassignment => noReassignment
  | .disallowedLoops => noLoops
  | .disallowedIfStatements => noIfStatements
  | .disallowedConsole => noConsole
  | .disallowedHelperFunctions => noHelperFunctions
  | .disallowedImport => allowedImports

theorem tag_ofTag (wanted : Violation.Tag) : (ofTag wanted).tag = wanted := by
  cases wanted <;> rfl

theorem ofTag_tag (detector : Detector) : ofTag detector.tag = detector :=
  tag_injective (tag_ofTag detector.tag)

theorem tag_of_mem_detect (submission : Submission) (rules : Rules) (detector : Detector)
    (finding : Finding) (h : finding ∈ detector.detect submission rules) :
    finding.violation.tag = detector.tag := by
  cases detector with
  | expectedFunctions => exact Check.tag_of_mem_expectedFunctions submission rules finding h
  | validDeclarations => exact Check.tag_of_mem_validDeclarations submission rules finding h
  | noReassignment => exact Check.tag_of_mem_noReassignment submission rules finding h
  | noLoops => exact Check.tag_of_mem_nodes submission .loop _ (fun _ => rfl) _ _ finding h
  | noIfStatements =>
    exact Check.tag_of_mem_nodes submission .ifStatement _ (fun _ => rfl) _ _ finding h
  | noConsole => exact Check.tag_of_mem_noConsole submission rules finding h
  | noHelperFunctions =>
    exact Check.tag_of_mem_nodes submission .helperFunction _ (fun _ => rfl) _ _ finding h
  | allowedImports => exact Check.tag_of_mem_allowedImports submission rules finding h

end Detector

def Finding.tagged (tag : Violation.Tag) (findings : List Finding) : List Finding :=
  findings.filter fun finding => finding.violation.tag = tag

namespace Engine

variable (submission : Submission) (rules : Rules)

/-- The findings with a detector's tag are those of the detector. -/
theorem mem_check_and_tag (engine : Engine) (detector : Detector) (finding : Finding) :
    finding ∈ engine.check submission rules ∧ finding.violation.tag = detector.tag ↔
      detector ∈ engine.detectors ∧ finding ∈ detector.detect submission rules := by
  rw [mem_check]
  constructor
  · rintro ⟨⟨other, hother, hfinding⟩, htag⟩
    have hsame : other = detector := Detector.tag_injective
      ((Detector.tag_of_mem_detect submission rules other finding hfinding).symm.trans htag)
    subst hsame
    exact ⟨hother, hfinding⟩
  · rintro ⟨hdetector, hfinding⟩
    exact ⟨⟨detector, hdetector, hfinding⟩,
      Detector.tag_of_mem_detect submission rules detector finding hfinding⟩

/-- A detector that takes part has found nothing when nothing found has its tag. -/
theorem tag_not_mem_check_iff (engine : Engine) (detector : Detector)
    (h : detector ∈ engine.detectors) :
    (∀ finding ∈ engine.check submission rules, finding.violation.tag ≠ detector.tag) ↔
      detector.detect submission rules = [] := by
  constructor
  · intro hnone
    apply List.eq_nil_iff_forall_not_mem.mpr
    intro finding hfinding
    have hboth := (mem_check_and_tag submission rules engine detector finding).mpr ⟨h, hfinding⟩
    exact hnone finding hboth.1 hboth.2
  · intro hnil finding hfinding htag
    have hboth := (mem_check_and_tag submission rules engine detector finding).mp
      ⟨hfinding, htag⟩
    rw [hnil] at hboth
    simp at hboth

/-- What one detector contributes to the findings with another's tag: all, or nothing. -/
theorem tagged_detect (detector other : Detector) :
    Finding.tagged detector.tag (other.detect submission rules) =
      if other = detector then other.detect submission rules else [] := by
  have htag := Detector.tag_of_mem_detect submission rules other
  split
  · next hsame =>
    subst hsame
    exact List.filter_eq_self.mpr fun finding hfinding => by simp [htag finding hfinding]
  · next hother =>
    apply List.filter_eq_nil_iff.mpr
    intro finding hfinding
    have hne : other.tag ≠ detector.tag := fun heq => hother (Detector.tag_injective heq)
    simp [htag finding hfinding, hne]

/-- Among all detectors each has its tag to itself, so the findings with the tag are its own, as
it lists them. -/
theorem tagged_standard_check (detector : Detector) :
    Finding.tagged detector.tag (standard.check submission rules) =
      detector.detect submission rules := by
  have hflat : Finding.tagged detector.tag (standard.check submission rules) =
      Detector.all.flatMap fun other =>
        if other = detector then other.detect submission rules else [] := by
    rw [check_eq_flatMap, Finding.tagged, List.filter_flatMap]
    exact congrArg (List.flatMap · Detector.all)
      (funext (tagged_detect submission rules detector))
  rw [hflat]
  cases detector <;> simp [Detector.all]

end Engine

end Rubric
