import Rubric.Proofs.FunctionNames
import Rubric.Proofs.NodeLinks

/-!
Functions of the top level, read from their parents, and the report of those that are missing. A
function stands at the top level when it, or the declaration that it is a declarator of, stands in
the program or is what an export of the program exports. Going down from the program finds these
functions and no others. Expected names that none of them has are reported together, each once and
in the order in which they were first expected.
-/
namespace Rubric

open Grammar

namespace Submission

variable (submission : Submission)

/-- A node that stands in the program, or that an export in the program exports. -/
def AtTopLevel (item : Nat) : Prop :=
  submission.parent item = some 0 ∨
    ∃ wrapper, submission.parent item = some wrapper ∧
      submission.kind wrapper = .exportStatement ∧ submission.parent wrapper = some 0 ∧
      submission.childByField wrapper "declaration" = some item

inductive TopLevelFunction (i : Nat) : String → Prop where
  | declaration (name : Nat) (kind : submission.kind i = .functionDeclaration)
      (named : submission.childByField i "name" = some name) (place : submission.AtTopLevel i) :
      TopLevelFunction i (submission.text name)
  | declarator (value name parent : Nat) (kind : submission.kind i = .variableDeclarator)
      (valued : submission.childByField i "value" = some value)
      (function : (submission.kind value).isFunctionLike = true)
      (named : submission.childByField i "name" = some name)
      (identifier : submission.kind name = .identifier)
      (above : submission.parent i = some parent)
      (declaration : (submission.kind parent).isDeclaration = true)
      (place : submission.AtTopLevel parent) : TopLevelFunction i (submission.text name)

variable {submission}

/-- The items found from the program down are those at the top level, exports apart. -/
theorem Linked.mem_topLevelItems (h : submission.Linked) (item : Nat)
    (hkind : submission.kind item ≠ .exportStatement) :
    item ∈ (submission.children 0).filterMap submission.topLevelItem? ↔
      submission.AtTopLevel item := by
  rw [List.mem_filterMap]
  constructor
  · rintro ⟨child, hchild, hitem⟩
    have hparent := (h 0 child).mpr hchild
    unfold topLevelItem? at hitem
    split at hitem
    · next hexport =>
      exact Or.inr ⟨child, h.parent_of_childByField child item _ hitem, hexport, hparent, hitem⟩
    · obtain rfl := Option.some.inj hitem
      exact Or.inl hparent
  · rintro (hparent | ⟨wrapper, -, hexport, hparent, hitem⟩)
    · exact ⟨item, (h 0 item).mp hparent, by rw [topLevelItem?, if_neg hkind]⟩
    · exact ⟨wrapper, (h 0 wrapper).mp hparent, by rw [topLevelItem?, if_pos hexport, hitem]⟩

/-- A declared function is a function of the item that it is itself. -/
theorem Linked.mem_topLevelFunctions_of_declaration (h : submission.Linked) (i : Nat)
    (hkind : submission.kind i = .functionDeclaration) :
    i ∈ submission.topLevelFunctions ↔ submission.AtTopLevel i := by
  have hitems := h.mem_topLevelItems i (by simp [hkind])
  unfold topLevelFunctions
  rw [List.mem_flatMap, ← hitems]
  constructor
  · rintro ⟨item, hitem, hi⟩
    unfold itemFunctions at hi
    split at hi
    · obtain rfl := List.mem_singleton.mp hi
      exact hitem
    · split at hi
      · have hdeclarator := kind_of_isFunctionDeclarator submission i (List.mem_filter.mp hi).2
        simp [hkind] at hdeclarator
      · simp at hi
  · intro hitem
    exact ⟨i, hitem, by simp [itemFunctions, hkind]⟩

/-- A declarator is a function of the declaration that it stands in. -/
theorem Linked.mem_topLevelFunctions_of_declarator (h : submission.Linked) (i : Nat)
    (hkind : submission.kind i = .variableDeclarator) :
    i ∈ submission.topLevelFunctions ↔
      submission.isFunctionDeclarator i = true ∧
        ∃ parent, submission.parent i = some parent ∧
          (submission.kind parent).isDeclaration = true ∧ submission.AtTopLevel parent := by
  have hexport (item : Nat) (hdeclaration : (submission.kind item).isDeclaration = true) :
      submission.kind item ≠ .exportStatement ∧
        submission.kind item ≠ .functionDeclaration := by
    constructor <;> intro heq <;> rw [heq] at hdeclaration <;> cases hdeclaration
  unfold topLevelFunctions
  rw [List.mem_flatMap]
  constructor
  · rintro ⟨item, hitem, hi⟩
    unfold itemFunctions at hi
    split at hi
    · next hfunction =>
      obtain rfl := List.mem_singleton.mp hi
      simp [hkind] at hfunction
    · split at hi
      · next hdeclaration =>
        obtain ⟨hchild, hdeclarator⟩ := List.mem_filter.mp hi
        exact ⟨hdeclarator, item, (h item i).mpr hchild, hdeclaration,
          (h.mem_topLevelItems item (hexport item hdeclaration).1).mp hitem⟩
      · simp at hi
  · rintro ⟨hdeclarator, parent, hparent, hdeclaration, hplace⟩
    obtain ⟨hnotExport, hnotFunction⟩ := hexport parent hdeclaration
    refine ⟨parent, (h.mem_topLevelItems parent hnotExport).mpr hplace, ?_⟩
    rw [itemFunctions, if_neg hnotFunction, if_pos hdeclaration]
    exact List.mem_filter.mpr ⟨(h parent i).mp hparent, hdeclarator⟩

variable (submission) in
theorem isFunctionDeclarator_iff (i : Nat) :
    submission.isFunctionDeclarator i = true ↔
      submission.kind i = .variableDeclarator ∧
        ∃ value, submission.childByField i "value" = some value ∧
          (submission.kind value).isFunctionLike = true := by
  unfold isFunctionDeclarator
  rw [Bool.and_eq_true, beq_iff_eq]
  cases submission.childByField i "value" <;> simp

/-- The names found from the program down are those of the functions at the top level. -/
theorem Linked.mem_topLevelNames (h : submission.Linked) (text : String) :
    text ∈ submission.topLevelNames ↔ ∃ i, submission.TopLevelFunction i text := by
  unfold topLevelNames
  rw [List.mem_filterMap]
  constructor
  · rintro ⟨i, hi, hname⟩
    unfold functionName? at hname
    split at hname
    · next hkind =>
      obtain ⟨name, hnamed, rfl⟩ := Option.map_eq_some_iff.mp hname
      exact ⟨i, .declaration name hkind hnamed
        ((h.mem_topLevelFunctions_of_declaration i hkind).mp hi)⟩
    · split at hname
      · next hdeclarator =>
        obtain ⟨hkind, value, hvalue, hfunction⟩ :=
          (isFunctionDeclarator_iff submission i).mp hdeclarator
        obtain ⟨-, parent, hparent, hdeclaration, hplace⟩ :=
          (h.mem_topLevelFunctions_of_declarator i hkind).mp hi
        split at hname
        · next name hnamed =>
          split at hname
          · next hidentifier =>
            obtain rfl := Option.some.inj hname
            exact ⟨i, .declarator value name parent hkind hvalue hfunction hnamed hidentifier
              hparent hdeclaration hplace⟩
          · simp at hname
        · simp at hname
      · simp at hname
  · rintro ⟨i, hfunction⟩
    cases hfunction with
    | declaration name hkind hnamed hplace =>
      refine ⟨i, (h.mem_topLevelFunctions_of_declaration i hkind).mpr hplace, ?_⟩
      simp [functionName?, hkind, hnamed]
    | declarator value name parent hkind hvalue hfunction hnamed hidentifier hparent
        hdeclaration hplace =>
      have hdeclarator := (isFunctionDeclarator_iff submission i).mpr
        ⟨hkind, value, hvalue, hfunction⟩
      refine ⟨i, (h.mem_topLevelFunctions_of_declarator i hkind).mpr
        ⟨hdeclarator, parent, hparent, hdeclaration, hplace⟩, ?_⟩
      simp [functionName?, hkind, hdeclarator, hnamed, hidentifier]

end Submission

namespace Check

/-- Missing names stand in the order in which they were first expected. -/
theorem pairwise_missingNames (found expected : List String) :
    (missingNames found expected).Pairwise fun left right =>
      expected.idxOf left < expected.idxOf right := by
  induction expected using List.reverseRecOn with
  | nil => simp [missingNames]
  | append_singleton expected last ih =>
    have hearlier (name : String) (hname : name ∈ missingNames found expected) :
        (expected ++ [last]).idxOf name = expected.idxOf name :=
      List.idxOf_append_of_mem ((mem_missingNames found expected name).mp hname).1
    have hbefore : (missingNames found expected).Pairwise fun left right =>
        (expected ++ [last]).idxOf left < (expected ++ [last]).idxOf right := by
      refine ih.imp_of_mem ?_
      intro left right hleft hright hlt
      rw [hearlier left hleft, hearlier right hright]
      exact hlt
    rw [missingNames_concat]
    split
    · exact hbefore
    · next hnew =>
      rw [Bool.or_eq_true, List.contains_iff_mem, List.contains_iff_mem, not_or] at hnew
      -- A name that was expected before and not found would be missing already.
      have hlast : last ∉ expected := fun hmem =>
        hnew.2 ((mem_missingNames found expected last).mpr ⟨hmem, hnew.1⟩)
      rw [List.pairwise_append]
      refine ⟨hbefore, List.pairwise_singleton _ last, ?_⟩
      intro name hname other hother
      obtain rfl := List.mem_singleton.mp hother
      have hlt := List.idxOf_lt_length_of_mem ((mem_missingNames found expected name).mp hname).1
      rw [hearlier name hname, List.idxOf_append_of_notMem hlast]
      omega

/-- A list of the expected names that no function of the top level has. -/
structure ListsMissing (submission : Submission) (expected missing : List String) : Prop where
  ne_nil : missing ≠ []
  nodup : missing.Nodup
  inOrder : missing.Pairwise fun left right => expected.idxOf left < expected.idxOf right
  mem_iff : ∀ name, name ∈ missing ↔
    name ∈ expected ∧ ∀ i, ¬ submission.TopLevelFunction i name

theorem expectedFunctions_eq_ite (submission : Submission) (rules : Rules)
    (expected : List String) (h : rules.expectedFunctions = some expected) :
    expectedFunctions submission rules =
      if missingNames submission.topLevelNames expected = [] then []
      else [Finding.wholeFile
        (.missingFunctions (missingNames submission.topLevelNames expected))] := by
  simp only [expectedFunctions, h, Violation.missingFunctions?, List.isEmpty_iff]
  split <;> rfl

theorem listsMissing_missingNames (submission : Submission) (hlinked : submission.Linked)
    (expected : List String) (h : missingNames submission.topLevelNames expected ≠ []) :
    ListsMissing submission expected (missingNames submission.topLevelNames expected) where
  ne_nil := h
  nodup := by
    refine (pairwise_missingNames submission.topLevelNames expected).imp ?_
    rintro left right hlt rfl
    omega
  inOrder := pairwise_missingNames submission.topLevelNames expected
  mem_iff := by
    intro name
    rw [mem_missingNames, hlinked.mem_topLevelNames, not_exists]

/-- The check on expected functions reports at most once. It reports when a name is expected that
no function of the top level has, and then it lists all those names, each once and in the order in
which they were first expected. -/
theorem missing_functions_reported_exactly (source : String) (parse : Parse) (rules : Rules) :
    let submission := Submission.ofParse source parse
    let findings := Detector.expectedFunctions.detect submission rules
    findings.length ≤ 1 ∧
      (findings.length = 1 ↔ ∃ expected, rules.expectedFunctions = some expected ∧
        ∃ name ∈ expected, ∀ i, ¬ submission.TopLevelFunction i name) ∧
      ∀ finding ∈ findings, ∃ expected missing, rules.expectedFunctions = some expected ∧
        finding = Finding.wholeFile (.missingFunctions missing) ∧
        ListsMissing submission expected missing := by
  intro submission findings
  have hlinked : submission.Linked := Submission.linked_ofParse source parse
  have hfindings : findings = expectedFunctions submission rules := rfl
  cases hexpected : rules.expectedFunctions with
  | none =>
    rw [expectedFunctions, hexpected] at hfindings
    simp [hfindings]
  | some expected =>
    rw [expectedFunctions_eq_ite submission rules expected hexpected] at hfindings
    by_cases hnone : missingNames submission.topLevelNames expected = []
    · rw [if_pos hnone] at hfindings
      rw [hfindings]
      refine ⟨Nat.zero_le 1, iff_of_false (by simp) ?_, by simp⟩
      rintro ⟨_, ⟨⟩, name, hname, hmissing⟩
      obtain ⟨i, hi⟩ := (hlinked.mem_topLevelNames name).mp
        ((missingNames_eq_nil_iff _ expected).mp hnone hname)
      exact hmissing i hi
    · rw [if_neg hnone] at hfindings
      have hlists := listsMissing_missingNames submission hlinked expected hnone
      obtain ⟨name, hname⟩ := List.exists_mem_of_ne_nil _ hnone
      rw [hfindings]
      refine ⟨Nat.le_refl 1, iff_of_true rfl ⟨expected, rfl, name, ?_⟩, ?_⟩
      · exact (hlists.mem_iff name).mp hname
      · intro finding hfinding
        exact ⟨expected, _, rfl, List.mem_singleton.mp hfinding, hlists⟩

/-- An exported function with another inside it, and a function that is the value of a variable.
Of the expected names, the inner function's is missing and so is one that nothing has. -/
theorem missing_functions_reported_exactly_inner_function :
    let rule (kind : String) (field : Option String) (start stop : Nat) : List Tree → Tree :=
      .node ⟨kind, true, false, field, ⟨start, stop⟩⟩
    let inner := rule "variable_declarator" none 26 35
      [rule "identifier" (some "name") 26 27 [], rule "arrow_function" (some "value") 30 35 []]
    let body := rule "statement_block" (some "body") 19 36
      [rule "lexical_declaration" none 20 35 [inner]]
    let outer := rule "function_declaration" (some "declaration") 7 36
      [rule "identifier" (some "name") 16 17 [], body]
    let outside := rule "variable_declarator" none 41 57
      [rule "identifier" (some "name") 41 42 [], rule "function_expression" (some "value") 45 57 []]
    let source := "export function f(){const h = ()=>1}\nlet g = function(){}"
    let submission := Submission.ofParse source ⟨rule "program" none 0 57
      [rule "export_statement" none 0 36 [outer], rule "lexical_declaration" none 37 57 [outside]],
      false⟩
    let rules : Rules := { expectedFunctions := some ["k", "f", "h", "k", "g"] }
    submission.TopLevelFunction 2 "f" ∧ submission.TopLevelFunction 10 "g" ∧
      Detector.expectedFunctions.detect submission rules =
        [Finding.wholeFile (.missingFunctions ["k", "h"])] ∧
      ∀ i, ¬ submission.TopLevelFunction i "h" := by
  intro rule inner body outer outside source submission rules
  have hexported : submission.TopLevelFunction 2 "f" := by
    have hname : submission.text 3 = "f" := by decide +kernel
    rw [← hname]
    exact .declaration 3 (by decide +kernel) (by decide +kernel)
      (Or.inr ⟨1, by decide +kernel, by decide +kernel, by decide +kernel, by decide +kernel⟩)
  have hvariable : submission.TopLevelFunction 10 "g" := by
    have hname : submission.text 11 = "g" := by decide +kernel
    rw [← hname]
    exact .declarator 12 11 9 (by decide +kernel) (by decide +kernel) (by decide +kernel)
      (by decide +kernel) (by decide +kernel) (by decide +kernel) (by decide +kernel)
      (Or.inl (by decide +kernel))
  have hfindings : Detector.expectedFunctions.detect submission rules =
      [Finding.wholeFile (.missingFunctions ["k", "h"])] := by decide +kernel
  refine ⟨hexported, hvariable, hfindings, ?_⟩
  obtain ⟨-, -, hlisted⟩ := missing_functions_reported_exactly _ _ rules
  obtain ⟨expected, missing, -, hfinding, hmissing⟩ :=
    hlisted _ (hfindings ▸ List.mem_singleton_self _)
  have hsame : ["k", "h"] = missing :=
    Violation.missingFunctions.inj (congrArg Finding.violation hfinding)
  exact ((hmissing.mem_iff "h").mp (hsame ▸ by decide)).2

end Check

end Rubric
