import Rubric.Proofs.FindingTags
import Rubric.Proofs.SourceOrder

/-!
The order of a report. Findings come detector by detector, and each detector looks at the nodes in
document order. A finding points at the node that was looked at, or starts where it starts, so
starts never decrease; declarations are grouped by kind before that. A reassignment is found at its
operator but points at the expression around it, so only the operators are in source order.
-/
namespace Rubric

open Grammar

def Finding.StartsBy (left right : Finding) : Prop :=
  ∃ earlier later, left.span = some earlier ∧ right.span = some later ∧
    earlier.start ≤ later.start

def Violation.declares (kind : DeclarationKind) : Violation → Bool
  | declaration found _ => found == kind
  | _ => false

def Finding.declared (kind : DeclarationKind) (findings : List Finding) : List Finding :=
  findings.filter fun finding => finding.violation.declares kind

/-- Kinds of violations that are reported where the node looked at stands. -/
def Violation.Tag.atNodes : List Tag :=
  [disallowedLoops, disallowedIfStatements, disallowedConsole, disallowedHelperFunctions,
    disallowedImport]

/-- Reassignments that follow the source order of their operators. Each is accounted for by a pair
of its operator and the expression around it, which is what it points at. -/
def Check.ByOperator (submission : Submission) (findings : List Finding) : Prop :=
  ∃ operators : List (Nat × Nat),
    (∀ operator ∈ operators, isReassigning submission operator.1 = true ∧
      submission.parent operator.1 = some operator.2) ∧
    (operators.Pairwise fun left right => left.1 < right.1 ∧
      (submission.span left.1).start ≤ (submission.span right.1).start) ∧
    findings = operators.map fun operator => report submission .reassignment operator.2

/-- The order in which findings on a submission are reported. -/
structure Engine.InReportOrder (submission : Submission) (findings : List Finding) : Prop where
  byDetector : findings.Pairwise fun left right =>
    (Detector.ofTag left.violation.tag).code ≤ (Detector.ofTag right.violation.tag).code
  byKind : Finding.tagged .disallowedDeclarations findings =
    Finding.declared .constDecl findings ++ Finding.declared .letDecl findings ++
      Finding.declared .varDecl findings
  declarations : ∀ kind, (Finding.declared kind findings).Pairwise Finding.StartsBy
  places : ∀ tag ∈ Violation.Tag.atNodes,
    (Finding.tagged tag findings).Pairwise Finding.StartsBy
  reassignments : Check.ByOperator submission
    (Finding.tagged .disallowedReassignment findings)

namespace Check

variable {submission : Submission}

/-- Findings that start where the nodes they were made for start. -/
theorem pairwise_startsBy (h : submission.StartsInOrder) (look : Nat → Bool)
    (make : Nat → Option Finding)
    (hmake : ∀ i finding, make i = some finding →
      ∃ span, finding.span = some span ∧ span.start = (submission.span i).start) :
    ((submission.indices.filter look).filterMap make).Pairwise Finding.StartsBy := by
  rw [List.pairwise_filterMap]
  refine (List.Pairwise.filter look h).imp ?_
  intro i j hij left hleft right hright
  obtain ⟨earlier, hearlier, hstart⟩ := hmake i left hleft
  obtain ⟨later, hlater, hstart'⟩ := hmake j right hright
  exact ⟨earlier, later, hearlier, hlater, by omega⟩

/-- Findings on the nodes that were looked at, where rules ask for them. -/
theorem pairwise_startsBy_map (h : submission.StartsInOrder) (active : Bool)
    (look : Nat → Bool) (make : Nat → Finding)
    (hmake : ∀ i, (make i).span = some (submission.span i)) :
    (if active then (submission.indices.filter look).map make else []).Pairwise
      Finding.StartsBy := by
  split
  · rw [← List.filterMap_eq_map]
    apply pairwise_startsBy h look
    intro i finding hfinding
    have hsame : make i = finding := Option.some.inj hfinding
    subst hsame
    exact ⟨submission.span i, hmake i, rfl⟩
  · exact List.Pairwise.nil

theorem pairwise_startsBy_allowedImports (h : submission.StartsInOrder) (rules : Rules) :
    (allowedImports submission rules).Pairwise Finding.StartsBy := by
  unfold allowedImports
  split
  · exact List.Pairwise.nil
  · apply pairwise_startsBy h
    intro i finding hfinding
    unfold importFinding? at hfinding
    split at hfinding
    · simp at hfinding
    · dsimp only at hfinding
      split at hfinding
      · simp at hfinding
      · rw [← Option.some.inj hfinding]
        exact ⟨submission.span i, rfl, rfl⟩

/-- A declaration starts at its keyword, wherever it stops. -/
theorem declarationSpan_start (keyword : Nat) :
    (declarationSpan submission keyword).start = (submission.span keyword).start := by
  unfold declarationSpan
  split <;> rfl

/-- What is found at the nodes is in their order, each entry telling the node it was found at. -/
theorem pairwise_starts_filterMap {α : Type} (h : submission.StartsInOrder)
    (find : Nat → Option α) (node : α → Nat)
    (hfind : ∀ i entry, find i = some entry → node entry = i) :
    (submission.indices.filterMap find).Pairwise fun left right =>
      (submission.span (node left)).start ≤ (submission.span (node right)).start := by
  rw [List.pairwise_filterMap]
  refine List.Pairwise.imp ?_ h
  intro i j hij left hleft right hright
  rw [hfind i left hleft, hfind j right hright]
  exact hij

theorem pairwise_declarationKeywords (h : submission.StartsInOrder) :
    (declarationKeywords submission).Pairwise fun left right =>
      (submission.span left.2).start ≤ (submission.span right.2).start := by
  unfold declarationKeywords
  apply pairwise_starts_filterMap h _ Prod.snd
  intro i keyword hi
  split at hi
  · split at hi
    · rw [← Option.some.inj hi]
    · simp at hi
  · simp at hi

theorem pairwise_startsBy_declarationsOf (h : submission.StartsInOrder)
    (kind : DeclarationKind) :
    (declarationsOf submission (declarationKeywords submission) kind).Pairwise
      Finding.StartsBy := by
  unfold declarationsOf
  rw [List.pairwise_map]
  refine ((pairwise_declarationKeywords h).filter _).imp ?_
  intro left right hstart
  refine ⟨_, _, rfl, rfl, ?_⟩
  rw [declarationSpan_start, declarationSpan_start]
  exact hstart

/-- A group of declarations is of one kind. -/
theorem declares_of_mem_declarationsOf (keywords : List (DeclarationKind × Nat))
    (kind other : DeclarationKind) (finding : Finding)
    (h : finding ∈ declarationsOf submission keywords other) :
    finding.violation.declares kind = (other == kind) := by
  obtain ⟨keyword, hkeyword, rfl⟩ := List.mem_map.mp h
  have hother := (List.mem_filter.mp hkeyword).2
  rw [beq_iff_eq] at hother
  rw [← hother]
  rfl

variable (submission) in
theorem declared_declarationsOf (kind other : DeclarationKind) :
    Finding.declared kind
        (declarationsOf submission (declarationKeywords submission) other) =
      if other = kind then declarationsOf submission (declarationKeywords submission) other
      else [] := by
  split
  · next hsame =>
    apply List.filter_eq_self.mpr
    intro finding hfinding
    rw [declares_of_mem_declarationsOf _ kind other finding hfinding, hsame, beq_self_eq_true]
  · next hother =>
    apply List.filter_eq_nil_iff.mpr
    intro finding hfinding
    rw [declares_of_mem_declarationsOf _ kind other finding hfinding, beq_iff_eq]
    exact hother

variable (submission) in
theorem declared_validDeclarations (rules : Rules) (kind : DeclarationKind) :
    Finding.declared kind (validDeclarations submission rules) =
      if rules.allowsDeclaration kind then []
      else declarationsOf submission (declarationKeywords submission) kind := by
  have hgroup (other : DeclarationKind) :
      Finding.declared kind (if rules.allowsDeclaration other then []
        else declarationsOf submission (declarationKeywords submission) other) =
      if other = kind then if rules.allowsDeclaration other then []
        else declarationsOf submission (declarationKeywords submission) other else [] := by
    by_cases hallows : rules.allowsDeclaration other = true
    · simp [hallows, Finding.declared]
    · simp only [hallows, Bool.false_eq_true, if_false]
      exact declared_declarationsOf submission kind other
  rw [validDeclarations_eq_flatMap, Finding.declared, List.filter_flatMap]
  change (DeclarationKind.all.flatMap fun other => Finding.declared kind _) = _
  simp only [hgroup]
  cases kind <;> simp [DeclarationKind.all]

variable (submission) in
def reassignments : List (Nat × Nat) :=
  (submission.indices.filter (isReassigning submission)).filterMap fun i =>
    (submission.parent i).map fun parent => (i, parent)

theorem mem_reassignments (operator : Nat × Nat) (h : operator ∈ reassignments submission) :
    isReassigning submission operator.1 = true ∧
      submission.parent operator.1 = some operator.2 := by
  obtain ⟨i, hi, hoperator⟩ := List.mem_filterMap.mp h
  obtain ⟨parent, hparent, rfl⟩ := Option.map_eq_some_iff.mp hoperator
  exact ⟨(List.mem_filter.mp hi).2, hparent⟩

theorem pairwise_reassignments (h : submission.StartsInOrder) :
    (reassignments submission).Pairwise fun left right => left.1 < right.1 ∧
      (submission.span left.1).start ≤ (submission.span right.1).start := by
  have hindices : submission.indices.Pairwise (· < ·) := List.pairwise_lt_range
  unfold reassignments
  rw [List.pairwise_filterMap]
  refine ((hindices.and h).filter _).imp ?_
  intro i j hij left hleft right hright
  obtain ⟨parent, -, rfl⟩ := Option.map_eq_some_iff.mp hleft
  obtain ⟨parent', -, rfl⟩ := Option.map_eq_some_iff.mp hright
  exact hij

variable (submission) in
theorem noReassignment_eq (rules : Rules) (h : rules.disallows .reassignment = true) :
    noReassignment submission rules =
      (reassignments submission).map fun operator =>
        report submission .reassignment operator.2 := by
  rw [noReassignment, if_pos h, reassignments, List.map_filterMap]
  simp only [Option.map_map, Function.comp_def]

end Check

namespace Engine

variable (submission : Submission) (rules : Rules)

theorem declared_standard_check (kind : DeclarationKind) :
    Finding.declared kind (standard.check submission rules) =
      Finding.declared kind (Check.validDeclarations submission rules) := by
  have hblock := tagged_standard_check submission rules .validDeclarations
  change _ = Check.validDeclarations submission rules at hblock
  rw [← hblock, Finding.declared, Finding.declared, Finding.tagged, List.filter_filter]
  congr 1
  funext finding
  obtain ⟨violation, span⟩ := finding
  cases violation <;> simp [Violation.declares, Violation.tag, Detector.tag]

/-- Detectors run in the order of their codes, and each finding tells its detector. -/
theorem pairwise_code_check :
    (standard.check submission rules).Pairwise fun left right =>
      (Detector.ofTag left.violation.tag).code ≤ (Detector.ofTag right.violation.tag).code := by
  have hcode (detector : Detector) (finding : Finding)
      (hfinding : finding ∈ detector.detect submission rules) :
      Detector.ofTag finding.violation.tag = detector := by
    rw [Detector.tag_of_mem_detect submission rules detector finding hfinding,
      Detector.ofTag_tag]
  have hcodes : Detector.all.Pairwise fun left right => left.code ≤ right.code := by decide
  rw [check_eq_flatMap, List.pairwise_flatMap]
  refine ⟨?_, hcodes.imp ?_⟩
  · intro detector _
    apply List.pairwise_of_forall_mem_list
    intro left hleft right hright
    have hsame := (hcode detector left hleft).trans (hcode detector right hright).symm
    exact hsame ▸ String.le_refl _
  · intro earlier later hle left hleft right hright
    rw [hcode earlier left hleft, hcode later right hright]
    exact hle

theorem tagged_declarations_eq_append :
    Finding.tagged .disallowedDeclarations (standard.check submission rules) =
      Finding.declared .constDecl (standard.check submission rules) ++
        Finding.declared .letDecl (standard.check submission rules) ++
        Finding.declared .varDecl (standard.check submission rules) := by
  have hblock : Finding.tagged .disallowedDeclarations (standard.check submission rules) =
      Check.validDeclarations submission rules :=
    tagged_standard_check submission rules .validDeclarations
  rw [hblock]
  simp only [declared_standard_check, Check.declared_validDeclarations]
  rw [Check.validDeclarations_eq_flatMap]
  simp [DeclarationKind.all]

variable {submission} in
theorem pairwise_startsBy_tagged (h : submission.StartsInOrder) (tag : Violation.Tag)
    (htag : tag ∈ Violation.Tag.atNodes) :
    (Finding.tagged tag (standard.check submission rules)).Pairwise Finding.StartsBy := by
  rw [← Detector.tag_ofTag tag, tagged_standard_check]
  simp only [Violation.Tag.atNodes, List.mem_cons, List.not_mem_nil, or_false] at htag
  rcases htag with rfl | rfl | rfl | rfl | rfl
  · exact Check.pairwise_startsBy_map h _ _ _ fun _ => rfl
  · exact Check.pairwise_startsBy_map h _ _ _ fun _ => rfl
  · exact Check.pairwise_startsBy_map h _ _ _ fun _ => rfl
  · exact Check.pairwise_startsBy_map h _ _ _ fun _ => rfl
  · exact Check.pairwise_startsBy_allowedImports h rules

variable {submission} in
theorem pairwise_startsBy_declared (h : submission.StartsInOrder) (kind : DeclarationKind) :
    (Finding.declared kind (standard.check submission rules)).Pairwise Finding.StartsBy := by
  rw [declared_standard_check, Check.declared_validDeclarations]
  split
  · exact List.Pairwise.nil
  · exact Check.pairwise_startsBy_declarationsOf h kind

variable {submission} in
theorem byOperator_tagged (h : submission.StartsInOrder) :
    Check.ByOperator submission
      (Finding.tagged .disallowedReassignment (standard.check submission rules)) := by
  have hblock : Finding.tagged .disallowedReassignment (standard.check submission rules) =
      Check.noReassignment submission rules :=
    tagged_standard_check submission rules .noReassignment
  rw [hblock]
  by_cases hdisallow : rules.disallows .reassignment = true
  · exact ⟨Check.reassignments submission, Check.mem_reassignments,
      Check.pairwise_reassignments h, Check.noReassignment_eq submission rules hdisallow⟩
  · refine ⟨[], by simp, List.Pairwise.nil, ?_⟩
    rw [Check.noReassignment, if_neg hdisallow, List.map_nil]

/-- Over a tree of nested spans, all that the detectors find is in report order. -/
theorem check_in_report_order (source : String) (parse : Parse)
    (hnested : parse.tree.Everywhere Tree.Nested) (rules : Rules) :
    InReportOrder (Submission.ofParse source parse)
      (standard.check (Submission.ofParse source parse) rules) := by
  have horder := Submission.startsInOrder_ofParse source parse hnested
  exact
    { byDetector := pairwise_code_check _ rules
      byKind := tagged_declarations_eq_append _ rules
      declarations := pairwise_startsBy_declared rules horder
      places := pairwise_startsBy_tagged rules horder
      reassignments := byOperator_tagged rules horder }

/-- An assignment inside the target of another, and declarations of two kinds after it: the
constant is reported before the variable, and the inner assignment before the outer one. -/
theorem check_in_report_order_inner_assignment :
    let rule (kind : String) (start stop : Nat) : List Tree → Tree :=
      .node ⟨kind, true, false, none, ⟨start, stop⟩⟩
    let token (kind : String) (start stop : Nat) : Tree :=
      .node ⟨kind, false, false, none, ⟨start, stop⟩⟩ []
    let inner := rule "assignment_expression" 1 6
      [rule "identifier" 1 2 [], token "=" 3 4, rule "number" 5 6 []]
    let target := rule "member_expression" 0 9
      [rule "parenthesized_expression" 0 7 [token "(" 0 1, inner, token ")" 6 7],
        token "." 7 8, rule "property_identifier" 8 9 []]
    let outer := rule "assignment_expression" 0 13
      [target, token "=" 10 11, rule "number" 12 13 []]
    let declaration (keyword : String) (start middle stop : Nat) : Tree :=
      rule "lexical_declaration" start stop
        [token keyword start middle, rule "variable_declarator" (middle + 1) stop []]
    let source := "(x = 1).y = 2; let z; const w = 0"
    let parse : Parse := ⟨rule "program" 0 33
      [rule "expression_statement" 0 14 [outer, token ";" 13 14],
        declaration "let" 15 18 20, token ";" 20 21, declaration "const" 22 27 33], false⟩
    let rules : Rules := { validDeclarations := some [], disallow := some [.reassignment] }
    let findings := standard.check (Submission.ofParse source parse) rules
    parse.tree.Everywhere Tree.Nested ∧
      findings.map Finding.span =
        [some ⟨22, 33⟩, some ⟨15, 20⟩, some ⟨1, 6⟩, some ⟨0, 13⟩] ∧
      InReportOrder (Submission.ofParse source parse) findings := by
  intro rule token inner target outer declaration source parse rules findings
  have hnested : parse.tree.Everywhere Tree.Nested := by decide +kernel
  exact ⟨hnested, by decide +kernel, check_in_report_order source parse hnested rules⟩

end Engine

end Rubric
