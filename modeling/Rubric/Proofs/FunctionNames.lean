import Mathlib.Data.Finset.Dedup
import Mathlib.Data.List.Induction
import Rubric.Proofs.FindingTags

/-!
Names of functions, at the top level and anywhere. Expected functions are looked for at the top
level only, while helpers are looked for at every depth. A function of the top level is one of all
functions, so the two checks are silent together exactly when the expected names, the names at
the top level and the names at any depth are the same.
-/
namespace Rubric

open Grammar

namespace Submission

variable (submission : Submission)

def functionNames : List String := submission.indices.filterMap submission.functionName?

theorem lt_size_of_kind (i : Nat) (h : submission.kind i ≠ .other) : i < submission.size := by
  by_contra hout
  have hnone : submission.nodes[i]? = none := Array.getElem?_eq_none (Nat.le_of_not_lt hout)
  exact h (by simp only [kind, hnone])

theorem kind_of_isFunctionDeclarator (i : Nat) (h : submission.isFunctionDeclarator i = true) :
    submission.kind i = .variableDeclarator := by
  unfold isFunctionDeclarator at h
  rw [Bool.and_eq_true] at h
  exact beq_iff_eq.mp h.1

/-- Only a node of the submission has a function's name. -/
theorem lt_size_of_functionName? (i : Nat) (name : String)
    (h : submission.functionName? i = some name) : i < submission.size := by
  apply lt_size_of_kind
  unfold functionName? at h
  split at h
  · next hkind => simp [hkind]
  · split at h
    · next hdeclarator => simp [kind_of_isFunctionDeclarator submission i hdeclarator]
    · simp at h

theorem mem_functionNames (name : String) :
    name ∈ submission.functionNames ↔ ∃ i, submission.functionName? i = some name := by
  unfold functionNames indices
  rw [List.mem_filterMap]
  constructor
  · rintro ⟨i, -, hname⟩
    exact ⟨i, hname⟩
  · rintro ⟨i, hname⟩
    exact ⟨i, List.mem_range.mpr (submission.lt_size_of_functionName? i name hname), hname⟩

theorem topLevelNames_subset : submission.topLevelNames ⊆ submission.functionNames := by
  intro name hname
  obtain ⟨i, -, hi⟩ := List.mem_filterMap.mp hname
  exact (submission.mem_functionNames name).mpr ⟨i, hi⟩

end Submission

namespace Check

/-- One more expected name is missing unless it was found or is missing already. -/
theorem missingNames_concat (found expected : List String) (name : String) :
    missingNames found (expected ++ [name]) =
      if found.contains name || (missingNames found expected).contains name
      then missingNames found expected else missingNames found expected ++ [name] := by
  unfold missingNames
  rw [List.foldl_append, List.foldl_cons, List.foldl_nil]

theorem mem_missingNames (found expected : List String) (name : String) :
    name ∈ missingNames found expected ↔ name ∈ expected ∧ name ∉ found := by
  -- Names are taken in from the left, so the last one decides what is added last.
  induction expected using List.reverseRecOn with
  | nil => simp [missingNames]
  | append_singleton expected last ih =>
    rw [missingNames_concat, List.mem_append, List.mem_singleton]
    split
    · next hknown =>
      rw [Bool.or_eq_true, List.contains_iff_mem, List.contains_iff_mem] at hknown
      rw [ih]
      constructor
      · rintro ⟨hmem, hnot⟩
        exact ⟨Or.inl hmem, hnot⟩
      · rintro ⟨hmem | rfl, hnot⟩
        · exact ⟨hmem, hnot⟩
        · -- A name that was not found can only be known as missing.
          exact ih.mp (hknown.resolve_left hnot)
    · next hnew =>
      rw [Bool.or_eq_true, List.contains_iff_mem, List.contains_iff_mem, not_or] at hnew
      rw [List.mem_append, ih, List.mem_singleton]
      constructor
      · rintro (⟨hmem, hnot⟩ | rfl)
        · exact ⟨Or.inl hmem, hnot⟩
        · exact ⟨Or.inr rfl, hnew.1⟩
      · rintro ⟨hmem | rfl, hnot⟩
        · exact Or.inl ⟨hmem, hnot⟩
        · exact Or.inr rfl

theorem missingNames_eq_nil_iff (found expected : List String) :
    missingNames found expected = [] ↔ expected ⊆ found := by
  rw [List.eq_nil_iff_forall_not_mem]
  constructor
  · intro h name hname
    by_contra hnot
    exact h name ((mem_missingNames found expected name).mpr ⟨hname, hnot⟩)
  · intro h name hname
    obtain ⟨hmem, hnot⟩ := (mem_missingNames found expected name).mp hname
    exact hnot (h hmem)

variable (submission : Submission) (rules : Rules)

theorem expectedFunctions_eq_nil_iff (expected : List String)
    (h : rules.expectedFunctions = some expected) :
    expectedFunctions submission rules = [] ↔ expected ⊆ submission.topLevelNames := by
  rw [← missingNames_eq_nil_iff]
  unfold expectedFunctions Violation.missingFunctions?
  simp [h]

theorem isHelper_iff (expected : List String) (h : rules.expectedFunctions = some expected)
    (i : Nat) :
    isHelper submission rules i = true ↔
      ∃ name, submission.functionName? i = some name ∧ name ∉ expected := by
  unfold isHelper Rules.expectsFunction
  rw [h]
  cases submission.functionName? i <;> simp

theorem noHelperFunctions_eq_nil_iff (expected : List String)
    (h : rules.expectedFunctions = some expected)
    (hdisallow : rules.disallows .helperFunctions = true) :
    noHelperFunctions submission rules = [] ↔ submission.functionNames ⊆ expected := by
  unfold noHelperFunctions
  rw [if_pos (by simp [h, hdisallow]), List.map_eq_nil_iff, List.filter_eq_nil_iff]
  constructor
  · intro hnone name hname
    obtain ⟨i, hi⟩ := (submission.mem_functionNames name).mp hname
    by_contra hnot
    have hindex := List.mem_range.mpr (submission.lt_size_of_functionName? i name hi)
    exact hnone i hindex ((isHelper_iff submission rules expected h i).mpr ⟨name, hi, hnot⟩)
  · intro hsubset i _ hhelper
    obtain ⟨name, hi, hnot⟩ := (isHelper_iff submission rules expected h i).mp hhelper
    exact hnot (hsubset ((submission.mem_functionNames name).mpr ⟨i, hi⟩))

end Check

/-- Inclusions that run in a circle. -/
theorem toFinset_eq_iff_of_subset {α : Type} [DecidableEq α] (xs ys zs : List α) (h : ys ⊆ zs) :
    xs ⊆ ys ∧ zs ⊆ xs ↔ xs.toFinset = ys.toFinset ∧ ys.toFinset = zs.toFinset := by
  simp only [List.toFinset.ext_iff]
  constructor
  · rintro ⟨hxy, hzx⟩
    exact ⟨fun x => ⟨fun hx => hxy hx, fun hx => hzx (h hx)⟩,
      fun x => ⟨fun hx => h hx, fun hx => hxy (hzx hx)⟩⟩
  · rintro ⟨hxy, hyz⟩
    exact ⟨fun x hx => (hxy x).mp hx, fun x hx => (hxy x).mpr ((hyz x).mpr hx)⟩

/-- Under rules that expect functions and refuse helpers, no function is missing and none is a
helper exactly when the expected names are those of the top level and those of every depth. -/
theorem Engine.functions_as_expected_iff (submission : Submission) (rules : Rules)
    (expected : List String) (constructs : List Construct)
    (hexpected : rules.expectedFunctions = some expected)
    (hdisallow : rules.disallow = some constructs)
    (hhelpers : Construct.helperFunctions ∈ constructs) :
    (∀ finding ∈ Engine.standard.check submission rules,
        finding.violation.tag ≠ .missingExpectedFunction ∧
          finding.violation.tag ≠ .disallowedHelperFunctions) ↔
      expected.toFinset = submission.topLevelNames.toFinset ∧
        submission.topLevelNames.toFinset = submission.functionNames.toFinset := by
  have hdisallows : rules.disallows .helperFunctions = true := by
    simp [Rules.disallows, hdisallow, hhelpers]
  have hmissing := tag_not_mem_check_iff submission rules standard .expectedFunctions (by decide)
  have hhelper := tag_not_mem_check_iff submission rules standard .noHelperFunctions (by decide)
  rw [← toFinset_eq_iff_of_subset _ _ _ submission.topLevelNames_subset,
    ← Check.expectedFunctions_eq_nil_iff submission rules expected hexpected,
    ← Check.noHelperFunctions_eq_nil_iff submission rules expected hexpected hdisallows]
  constructor
  · intro hnone
    exact ⟨hmissing.mp fun finding hfinding => (hnone finding hfinding).1,
      hhelper.mp fun finding hfinding => (hnone finding hfinding).2⟩
  · rintro ⟨hnoMissing, hnoHelper⟩ finding hfinding
    exact ⟨hmissing.mpr hnoMissing finding hfinding, hhelper.mpr hnoHelper finding hfinding⟩

/-- A function inside an expected one: expecting its name too makes no helper of it, but it stays
missing at the top level. -/
theorem Engine.functions_as_expected_iff_nested :
    let rule (kind : String) (field : Option String) (start stop : Nat) : List Tree → Tree :=
      .node ⟨kind, true, false, field, ⟨start, stop⟩⟩
    let declarator := rule "variable_declarator" none 26 35
      [rule "identifier" (some "name") 26 27 [], rule "arrow_function" (some "value") 30 35 []]
    let body := rule "statement_block" (some "body") 19 36
      [rule "lexical_declaration" none 20 35 [declarator]]
    let outer := rule "function_declaration" (some "declaration") 7 36
      [rule "identifier" (some "name") 16 17 [], body]
    let submission := Submission.ofParse "export function f(){const g = ()=>1}"
      ⟨rule "program" none 0 36 [rule "export_statement" none 0 36 [outer]], false⟩
    let rules : Rules :=
      { expectedFunctions := some ["g", "f"], disallow := some [.loops, .helperFunctions] }
    submission.topLevelNames = ["f"] ∧ submission.functionNames = ["f", "g"] ∧
      ¬ ∀ finding ∈ Engine.standard.check submission rules,
        finding.violation.tag ≠ .missingExpectedFunction ∧
          finding.violation.tag ≠ .disallowedHelperFunctions := by
  intro rule declarator body outer submission rules
  have htop : submission.topLevelNames = ["f"] := by decide +kernel
  have hall : submission.functionNames = ["f", "g"] := by decide +kernel
  refine ⟨htop, hall, ?_⟩
  rw [functions_as_expected_iff submission rules ["g", "f"] [.loops, .helperFunctions] rfl rfl
    (by decide), htop, hall]
  decide

end Rubric
