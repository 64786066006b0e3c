import Rubric.Proofs.PresentNodes
import Rubric.Proofs.ReportOrder

/-!
Reassigning expressions. A reassignment is found at its operator, and the expression around it is
what is reported. Where operators stand only in expressions that are theirs, and no expression
holds two of them, every operator that is found leads to an expression of its own. So the findings
are on the expressions, one on each, although an assignment inside the target of another is found
before the one around it.
-/
namespace Rubric

open Grammar

def NodeKind.reassignsBy : NodeKind → Operator → Bool
  | assignmentExpression, op => op == .assign
  | updateExpression, op => op.isUpdate
  | augmentedAssignmentExpression, op => op.isCompound
  | _, _ => false

/-- Operators among the children of a node are in their place. An expression that can reassign
holds one at most; the plain assignment may stand in any other node as well. -/
@[mk_iff]
structure OperatorsFit (category : NodeKind) (operators : List Operator) : Prop where
  single : category ∈ [.assignmentExpression, .updateExpression, .augmentedAssignmentExpression] →
    operators.length ≤ 1
  update : ∀ op ∈ operators, op.isUpdate = true → category = .updateExpression
  compound : ∀ op ∈ operators, op.isCompound = true → category = .augmentedAssignmentExpression

instance (category : NodeKind) (operators : List Operator) :
    Decidable (OperatorsFit category operators) :=
  decidable_of_iff _ (operatorsFit_iff category operators).symm

def Grammar.Tree.operators (tree : Tree) : List Operator :=
  tree.presentLabels.filterMap fun label => label.category.operator?

def Grammar.Tree.OperatorsInPlace (tree : Tree) : Prop :=
  OperatorsFit tree.label.category tree.operators

instance (tree : Tree) : Decidable tree.OperatorsInPlace :=
  inferInstanceAs (Decidable (OperatorsFit tree.label.category tree.operators))

namespace Submission

def operators (submission : Submission) (i : Nat) : List Operator :=
  (submission.children i).filterMap fun child => (submission.kind child).operator?

/-- The assignments, updates and augmented assignments that directly hold an operator of theirs. -/
def reassigningExpressions (submission : Submission) : List Nat :=
  submission.indices.filter fun i =>
    (submission.operators i).any (submission.kind i).reassignsBy

end Submission

/-! Operators and their expressions -/

theorem NodeKind.operator?_eq_some_iff (kind : NodeKind) (op : Operator) :
    kind.operator? = some op ↔ kind = .operator op := by
  cases kind <;> simp [operator?]

theorem NodeKind.reassignsBy_assign_iff (kind : NodeKind) :
    kind.reassignsBy .assign = true ↔ kind = .assignmentExpression := by
  cases kind <;> simp [reassignsBy, Operator.isUpdate, Operator.isCompound]

theorem NodeKind.mem_of_reassignsBy (kind : NodeKind) (op : Operator)
    (h : kind.reassignsBy op = true) :
    kind ∈ [.assignmentExpression, .updateExpression, .augmentedAssignmentExpression] := by
  cases kind <;> simp [reassignsBy] at h ⊢

/-- Every operator but the plain assignment is where it reassigns. -/
theorem OperatorsFit.reassignsBy {category : NodeKind} {operators : List Operator}
    (h : OperatorsFit category operators) (op : Operator) (hmem : op ∈ operators)
    (hop : op ≠ .assign) : category.reassignsBy op = true := by
  have hsplit : op.isUpdate = true ∨ op.isCompound = true := by
    cases op <;> simp [Operator.isUpdate, Operator.isCompound] at hop ⊢
  rcases hsplit with hupdate | hcompound
  · rw [h.update op hmem hupdate, NodeKind.reassignsBy, hupdate]
  · rw [h.compound op hmem hcompound, NodeKind.reassignsBy, hcompound]

theorem Grammar.Tree.OperatorsInPlace.prune {tree kept : Tree} (h : tree.OperatorsInPlace)
    (hkept : tree.prune = some kept) : kept.OperatorsInPlace := by
  unfold OperatorsInPlace operators
  rw [presentLabels_prune tree kept hkept, (prune_eq_some tree kept hkept).1]
  exact h

namespace Submission

theorem Shows.operators_at {submission : Submission} {tree : Tree} (h : submission.Shows tree)
    (address : List Nat) (subtree : Tree) (hat : tree.at? address = some subtree) :
    submission.operators (tree.position address) = subtree.operators := by
  have hmap := h.map_children (fun i => (submission.kind i).operator?)
    (fun label => label.category.operator?)
    (fun address subtree hat => by rw [h.kind_at address subtree hat]) address subtree hat
  have hsome := congrArg (List.filterMap id) hmap
  rw [List.filterMap_map, List.filterMap_map] at hsome
  exact hsome

/-- Operators are in place throughout a submission when they are throughout the tree. -/
theorem operatorsFit_ofParse (source : String) (parse : Parse)
    (h : parse.tree.Everywhere Tree.OperatorsInPlace) (i : Nat) :
    OperatorsFit ((ofParse source parse).kind i) ((ofParse source parse).operators i) := by
  by_cases hi : i < (ofParse source parse).size
  · cases hprune : parse.tree.prune with
    | none =>
      have hsize := size_ofParse_of_prune_eq_none source parse hprune
      omega
    | some kept =>
      have hshows := shows_ofParse source parse kept hprune
      have hplace : kept.Everywhere Tree.OperatorsInPlace :=
        h.prune hprune fun before after hkept hbefore => hbefore.prune hkept
      obtain ⟨address, subtree, hat, rfl⟩ := hshows.laysOut.exists_address i hi
      rw [hshows.kind_at address subtree hat, hshows.operators_at address subtree hat]
      exact hplace address subtree hat
  · have hnone : (ofParse source parse).operators i = [] := by
      rw [operators, children_of_size_le _ i (Nat.le_of_not_lt hi), List.filterMap_nil]
    rw [hnone]
    exact ⟨fun _ => Nat.zero_le 1, by simp, by simp⟩

end Submission

namespace Check

variable {submission : Submission}

/-- An operator that is found reassigns by standing in the expression around it. -/
theorem isReassigning_iff (hlinked : submission.Linked)
    (hfit : ∀ i, OperatorsFit (submission.kind i) (submission.operators i))
    (i expression : Nat) (hparent : submission.parent i = some expression) :
    isReassigning submission i = true ↔
      ∃ op, (submission.kind i).operator? = some op ∧
        (submission.kind expression).reassignsBy op = true := by
  have hchild : i ∈ submission.children expression := (hlinked expression i).mp hparent
  constructor
  · intro h
    unfold isReassigning at h
    split at h
    · next hkind =>
      simp only [hparent, beq_iff_eq] at h
      exact ⟨.assign, by rw [hkind]; rfl, (NodeKind.reassignsBy_assign_iff _).mpr h⟩
    · next op hassign hkind =>
      have hsome : (submission.kind i).operator? = some op := by rw [hkind]; rfl
      have hop : op ≠ .assign := hassign
      exact ⟨op, hsome, (hfit expression).reassignsBy op
        (List.mem_filterMap.mpr ⟨i, hchild, hsome⟩) hop⟩
    · simp at h
  · rintro ⟨op, hsome, hop⟩
    rw [NodeKind.operator?_eq_some_iff] at hsome
    cases op with
    | assign =>
      simp [isReassigning, hsome, hparent, (NodeKind.reassignsBy_assign_iff _).mp hop]
    | _ => simp [isReassigning, hsome, Operator.isUpdate, Operator.isCompound]

/-- No two operators that are found share an expression. -/
theorem operator_unique (hlinked : submission.Linked)
    (hfit : ∀ i, OperatorsFit (submission.kind i) (submission.operators i))
    (i j expression : Nat) (hi : submission.parent i = some expression)
    (hj : submission.parent j = some expression)
    (hireassigns : isReassigning submission i = true)
    (hjreassigns : isReassigning submission j = true) : i = j := by
  obtain ⟨op, hop, hreassigns⟩ := (isReassigning_iff hlinked hfit i expression hi).mp hireassigns
  obtain ⟨op', hop', -⟩ := (isReassigning_iff hlinked hfit j expression hj).mp hjreassigns
  have hlength := (hfit expression).single (NodeKind.mem_of_reassignsBy _ op hreassigns)
  rw [Submission.operators, List.length_filterMap_eq_countP, List.countP_eq_length_filter]
    at hlength
  have hmem (k : Nat) (op : Operator) (hk : submission.parent k = some expression)
      (hop : (submission.kind k).operator? = some op) :
      k ∈ (submission.children expression).filter fun child =>
        (submission.kind child).operator?.isSome :=
    List.mem_filter.mpr ⟨(hlinked expression k).mp hk, by rw [hop]; rfl⟩
  obtain ⟨a, ha, hia⟩ := List.getElem_of_mem (hmem i op hi hop)
  obtain ⟨b, hb, hjb⟩ := List.getElem_of_mem (hmem j op' hj hop')
  have hsame : a = b := by omega
  subst hsame
  exact hia.symm.trans hjb

theorem map_snd_reassignments (submission : Submission) :
    (reassignments submission).map Prod.snd =
      (submission.indices.filter (isReassigning submission)).filterMap submission.parent := by
  rw [reassignments, List.map_filterMap]
  simp only [Option.map_map, Function.comp_def, Option.map_id']

theorem nodup_map_snd_reassignments (hlinked : submission.Linked)
    (hfit : ∀ i, OperatorsFit (submission.kind i) (submission.operators i)) :
    ((reassignments submission).map Prod.snd).Nodup := by
  rw [map_snd_reassignments, List.filterMap_filter]
  refine List.Nodup.filterMap ?_ List.nodup_range
  intro i j expression hi hj
  rw [Option.mem_def, Option.ite_none_right_eq_some] at hi hj
  exact operator_unique hlinked hfit i j expression hi.2 hj.2 hi.1 hj.1

/-- The operators that are found lead to the reassigning expressions and to no other node. -/
theorem mem_map_snd_reassignments_iff (hlinked : submission.Linked)
    (hfit : ∀ i, OperatorsFit (submission.kind i) (submission.operators i)) (expression : Nat) :
    expression ∈ (reassignments submission).map Prod.snd ↔
      expression ∈ submission.reassigningExpressions := by
  rw [map_snd_reassignments, List.mem_filterMap, Submission.reassigningExpressions,
    List.mem_filter, List.any_eq_true]
  constructor
  · rintro ⟨i, hi, hparent⟩
    obtain ⟨op, hop, hreassigns⟩ :=
      (isReassigning_iff hlinked hfit i expression hparent).mp (List.mem_filter.mp hi).2
    have hchild := (hlinked expression i).mp hparent
    have hlt := submission.lt_size_of_mem_children expression i hchild
    exact ⟨List.mem_range.mpr hlt, op, List.mem_filterMap.mpr ⟨i, hchild, hop⟩, hreassigns⟩
  · rintro ⟨-, op, hop, hreassigns⟩
    obtain ⟨i, hchild, hkind⟩ := List.mem_filterMap.mp hop
    have hparent := (hlinked expression i).mpr hchild
    refine ⟨i, List.mem_filter.mpr ⟨?_, ?_⟩, hparent⟩
    · exact List.mem_range.mpr (submission.lt_size_of_parent expression i hparent)
    · exact (isReassigning_iff hlinked hfit i expression hparent).mpr ⟨op, hkind, hreassigns⟩

theorem perm_reassigningExpressions (hlinked : submission.Linked)
    (hfit : ∀ i, OperatorsFit (submission.kind i) (submission.operators i)) :
    ((reassignments submission).map Prod.snd).Perm submission.reassigningExpressions := by
  have hnodup : submission.reassigningExpressions.Nodup := List.nodup_range.filter _
  exact (List.perm_ext_iff_of_nodup (nodup_map_snd_reassignments hlinked hfit) hnodup).mpr
    (mem_map_snd_reassignments_iff hlinked hfit)

/-- A plain assignment is found in an assignment expression only. -/
theorem kind_of_mem_reassignments (operator : Nat × Nat) (h : operator ∈ reassignments submission)
    (hkind : submission.kind operator.1 = .operator .assign) :
    submission.kind operator.2 = .assignmentExpression := by
  obtain ⟨hreassigns, hparent⟩ := mem_reassignments operator h
  simpa [isReassigning, hkind, hparent] using hreassigns

/-- Where the operators of a tree are in place and rules disallow reassignment, the findings are on
the reassigning expressions, one on each. They come by the operators that are found, and no plain
assignment outside an assignment expression is among these. -/
theorem reassignments_found_on_expressions (source : String) (parse : Parse) (rules : Rules)
    (hrules : rules.disallows .reassignment = true)
    (hplace : parse.tree.Everywhere Tree.OperatorsInPlace) :
    let submission := Submission.ofParse source parse
    let findings := Detector.noReassignment.detect submission rules
    findings.Perm (submission.reassigningExpressions.map fun i =>
        Finding.at (.reassignment (submission.text i)) (submission.span i)) ∧
      findings = (reassignments submission).map
        (fun operator => report submission .reassignment operator.2) ∧
      ((reassignments submission).map Prod.snd).Perm submission.reassigningExpressions ∧
      ∀ operator ∈ reassignments submission,
        submission.kind operator.1 = .operator .assign →
          submission.kind operator.2 = .assignmentExpression := by
  intro submission findings
  have hfindings : findings = (reassignments submission).map fun operator =>
      report submission .reassignment operator.2 := noReassignment_eq submission rules hrules
  have hperm : ((reassignments submission).map Prod.snd).Perm submission.reassigningExpressions :=
    perm_reassigningExpressions (Submission.linked_ofParse source parse)
      (Submission.operatorsFit_ofParse source parse hplace)
  refine ⟨?_, hfindings, hperm, kind_of_mem_reassignments⟩
  have hreports := hperm.map (report submission .reassignment)
  rw [List.map_map] at hreports
  rw [hfindings]
  exact hreports

/-- An assignment inside the target of another, a constant with an initialiser, an increment and
a compound assignment. The inner assignment is found first, though its node comes later, and the
initialiser is not found. -/
theorem reassignments_found_on_expressions_inner_assignment :
    let rule (kind : String) (start stop : Nat) : List Tree → Tree :=
      .node ⟨kind, true, false, none, ⟨start, stop⟩⟩
    let token (kind : String) (start stop : Nat) : Tree :=
      .node ⟨kind, false, false, none, ⟨start, stop⟩⟩ []
    let inner := rule "assignment_expression" 1 6
      [rule "identifier" 1 2 [], token "=" 3 4, rule "number" 5 6 []]
    let target := rule "member_expression" 0 9
      [rule "parenthesized_expression" 0 7 [token "(" 0 1, inner, token ")" 6 7],
        token "." 7 8, rule "property_identifier" 8 9 []]
    let outer := rule "assignment_expression" 0 13
      [target, token "=" 10 11, rule "number" 12 13 []]
    let constant := rule "lexical_declaration" 15 27 [token "const" 15 20,
      rule "variable_declarator" 21 26
        [rule "identifier" 21 22 [], token "=" 23 24, rule "number" 25 26 []], token ";" 26 27]
    let increment := rule "update_expression" 28 31 [rule "identifier" 28 29 [], token "++" 29 31]
    let sum := rule "augmented_assignment_expression" 33 39
      [rule "identifier" 33 34 [], token "+=" 35 37, rule "number" 38 39 []]
    let source := "(x = 1).y = 2; const z = 0; i++; k += 3"
    let parse : Parse := ⟨rule "program" 0 39
      [rule "expression_statement" 0 14 [outer, token ";" 13 14], constant,
        rule "expression_statement" 28 32 [increment, token ";" 31 32],
        rule "expression_statement" 33 39 [sum]], false⟩
    let submission := Submission.ofParse source parse
    let findings := Detector.noReassignment.detect submission { disallow := some [.reassignment] }
    parse.tree.Everywhere Tree.OperatorsInPlace ∧
      findings.map Finding.span =
        [some ⟨1, 6⟩, some ⟨0, 13⟩, some ⟨28, 31⟩, some ⟨33, 39⟩] ∧
      findings.Perm [Finding.at (.reassignment "(x = 1).y = 2") ⟨0, 13⟩,
        Finding.at (.reassignment "x = 1") ⟨1, 6⟩, Finding.at (.reassignment "i++") ⟨28, 31⟩,
        Finding.at (.reassignment "k += 3") ⟨33, 39⟩] := by
  intro rule token inner target outer constant increment sum source parse submission findings
  have hplace : parse.tree.Everywhere Tree.OperatorsInPlace := by decide +kernel
  have hexpressions : (submission.reassigningExpressions.map fun i =>
      Finding.at (.reassignment (submission.text i)) (submission.span i)) =
        [Finding.at (.reassignment "(x = 1).y = 2") ⟨0, 13⟩,
          Finding.at (.reassignment "x = 1") ⟨1, 6⟩, Finding.at (.reassignment "i++") ⟨28, 31⟩,
          Finding.at (.reassignment "k += 3") ⟨33, 39⟩] := by decide +kernel
  refine ⟨hplace, by decide +kernel, ?_⟩
  rw [← hexpressions]
  exact (reassignments_found_on_expressions source parse _ rfl hplace).1

end Check

end Rubric
