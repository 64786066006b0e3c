import Rubric.Proofs.NodeLinks
import Rubric.Proofs.TextSlices

/-!
Spans of a parser's tree and of the nodes made from it. A tree is well placed over a text when
every span lies in the text, children stay inside their parent and follow each other, and the
keyword of a declaration or loop header comes before what it declares. Pruning keeps all of this,
and so do the nodes of a submission, where it is said of indices.
-/
namespace Rubric

open Grammar

namespace Grammar.Tree

def category (tree : Tree) : NodeKind := NodeKind.ofGrammar tree.label.kind tree.label.named

/-- What holds of the spans at a node and its children. -/
@[mk_iff]
structure WellPlaced (source : String) (tree : Tree) : Prop where
  inText : tree.label.span.InText source
  nested : ∀ child ∈ tree.children, tree.label.span.start ≤ child.label.span.start ∧
    child.label.span.stop ≤ tree.label.span.stop
  siblings : tree.children.Pairwise fun left right =>
    left.label.span.stop ≤ right.label.span.start
  declarators : tree.category.isDeclaration = true → tree.children.Pairwise fun left right =>
    left.category = .variableDeclarator → right.category.keyword? = none
  loopBinding : tree.category = .forInStatement → tree.children.Pairwise fun left right =>
    left.label.field = some "left" → right.category.keyword? = none

instance (source : String) (tree : Tree) : Decidable (tree.WellPlaced source) :=
  decidable_of_iff _ (wellPlaced_iff source tree).symm

theorem category_prune (tree kept : Tree) (h : tree.prune = some kept) :
    kept.category = tree.category := by
  unfold category
  rw [(prune_eq_some tree kept h).1]

/-- A relation between the labels of siblings stays when some are left out. -/
theorem pairwise_children_prune (R : Label → Label → Prop) (tree kept : Tree)
    (h : tree.prune = some kept)
    (hpairwise : tree.children.Pairwise fun left right => R left.label right.label) :
    kept.children.Pairwise fun left right => R left.label right.label := by
  rw [(prune_eq_some tree kept h).2, List.pairwise_filterMap]
  refine hpairwise.imp ?_
  intro left right hR left' hleft right' hright
  rw [(prune_eq_some left left' hleft).1, (prune_eq_some right right' hright).1]
  exact hR

theorem WellPlaced.prune {source : String} {tree kept : Tree} (h : tree.WellPlaced source)
    (hkept : tree.prune = some kept) : kept.WellPlaced source where
  inText := by
    rw [(prune_eq_some tree kept hkept).1]
    exact h.inText
  nested := by
    intro child hchild
    rw [(prune_eq_some tree kept hkept).2] at hchild
    obtain ⟨original, hmem, hprune⟩ := List.mem_filterMap.mp hchild
    rw [(prune_eq_some tree kept hkept).1, (prune_eq_some original child hprune).1]
    exact h.nested original hmem
  siblings := pairwise_children_prune (fun left right => left.span.stop ≤ right.span.start)
    tree kept hkept h.siblings
  declarators hkind := pairwise_children_prune
    (fun left right => NodeKind.ofGrammar left.kind left.named = .variableDeclarator →
      (NodeKind.ofGrammar right.kind right.named).keyword? = none)
    tree kept hkept (h.declarators (category_prune tree kept hkept ▸ hkind))
  loopBinding hkind := pairwise_children_prune
    (fun left right => left.field = some "left" →
      (NodeKind.ofGrammar right.kind right.named).keyword? = none)
    tree kept hkept (h.loopBinding (category_prune tree kept hkept ▸ hkind))

end Grammar.Tree

namespace Submission

/-- What holds of the spans of a submission's nodes, whose parents know them as children. -/
structure Placed (submission : Submission) : Prop where
  linked : ∀ i j, submission.parent j = some i → j ∈ submission.children i
  inText : ∀ i, (submission.span i).InText submission.source
  nested : ∀ i j, submission.parent j = some i →
    (submission.span i).start ≤ (submission.span j).start ∧
      (submission.span j).stop ≤ (submission.span i).stop
  siblings : ∀ i, (submission.children i).Pairwise fun left right =>
    (submission.span left).stop ≤ (submission.span right).start
  declarators : ∀ i, (submission.kind i).isDeclaration = true →
    (submission.children i).Pairwise fun left right =>
      submission.kind left = .variableDeclarator → (submission.kind right).keyword? = none
  loopBinding : ∀ i, submission.kind i = .forInStatement →
    (submission.children i).Pairwise fun left right =>
      submission.field left = some "left" → (submission.kind right).keyword? = none

theorem span_of_size_le (submission : Submission) (i : Nat) (h : submission.size ≤ i) :
    submission.span i = ⟨0, 0⟩ := by
  have hnone : submission.nodes[i]? = none := Array.getElem?_eq_none h
  simp only [span, hnone]

theorem inText_of_size_le (submission : Submission) (i : Nat) (h : submission.size ≤ i) :
    (submission.span i).InText submission.source := by
  rw [span_of_size_le submission i h]
  exact ⟨Nat.le_refl 0, Nat.zero_le _, Text.isPlace_zero _, Text.isPlace_zero _⟩

/-- A relation between the labels of siblings holds between their nodes. -/
theorem LaysOut.pairwise_children_of_tree {submission : Submission} {tree : Tree}
    (h : submission.LaysOut tree) (R : NodeKind × Option String × Span →
      NodeKind × Option String × Span → Prop) (i : Nat)
    (hpairwise : ∀ address subtree, tree.at? address = some subtree →
      tree.position address = i → subtree.children.Pairwise fun left right =>
        R (left.category, left.label.field, left.label.span)
          (right.category, right.label.field, right.label.span)) :
    (submission.children i).Pairwise fun left right =>
      R (submission.kind left, submission.field left, submission.span left)
        (submission.kind right, submission.field right, submission.span right) := by
  by_cases hi : i < submission.size
  · obtain ⟨address, subtree, hat, rfl⟩ := h.exists_address i hi
    have hmap := h.map_children
      (fun i => (submission.kind i, submission.field i, submission.span i))
      (fun child => (child.category, child.label.field, child.label.span))
      (fun address subtree hat => by
        obtain ⟨hkind, hfield, hspan, -⟩ := h.node_at address subtree hat
        simp only [hkind, hfield, hspan, Tree.category])
      address subtree hat
    rw [← List.pairwise_map
      (f := fun i => (submission.kind i, submission.field i, submission.span i)), hmap,
      List.pairwise_map]
    exact hpairwise address subtree hat rfl
  · rw [children_of_size_le submission i (Nat.le_of_not_lt hi)]
    exact List.Pairwise.nil

theorem LaysOut.category_of_kind {submission : Submission} {tree : Tree}
    (h : submission.LaysOut tree) (address : List Nat) (subtree : Tree)
    (hat : tree.at? address = some subtree) (i : Nat) (hi : tree.position address = i) :
    subtree.category = submission.kind i := by
  rw [← hi]
  exact (h.node_at address subtree hat).1.symm

theorem LaysOut.span_nested {submission : Submission} {tree : Tree} {source : String}
    (h : submission.LaysOut tree) (hplaced : tree.Everywhere (Tree.WellPlaced source))
    (i j : Nat) (hparent : submission.parent j = some i) :
    (submission.span i).start ≤ (submission.span j).start ∧
      (submission.span j).stop ≤ (submission.span i).stop := by
  obtain ⟨address, k, hi, hj⟩ := (h.parent_eq_some i j).mp hparent
  obtain ⟨⟨child, hchild⟩, rfl⟩ := (Tree.getElem?_addresses tree j _).mp hj
  obtain ⟨-, rfl⟩ := (Tree.getElem?_addresses tree i _).mp hi
  obtain ⟨above, habove, hbelow⟩ := Tree.at?_concat tree child address k hchild
  obtain ⟨-, -, hspan, -⟩ := h.node_at address above habove
  obtain ⟨-, -, hspan', -⟩ := h.node_at (address ++ [k]) child hchild
  rw [hspan, hspan']
  exact (hplaced address above habove).nested child (List.mem_of_getElem? hbelow)

/-- The nodes that lay out a well placed tree are well placed. -/
theorem LaysOut.placed {submission : Submission} {tree : Tree} (h : submission.LaysOut tree)
    (hplaced : tree.Everywhere (Tree.WellPlaced submission.source)) : submission.Placed where
  linked i j := (h.parent_eq_some_iff_mem i j).mp
  inText i := by
    by_cases hi : i < submission.size
    · obtain ⟨address, subtree, hat, rfl⟩ := h.exists_address i hi
      obtain ⟨-, -, hspan, -⟩ := h.node_at address subtree hat
      rw [hspan]
      exact (hplaced address subtree hat).inText
    · exact inText_of_size_le submission i (Nat.le_of_not_lt hi)
  nested := h.span_nested hplaced
  siblings i := by
    apply h.pairwise_children_of_tree fun left right => left.2.2.stop ≤ right.2.2.start
    intro address subtree hat _
    exact (hplaced address subtree hat).siblings
  declarators i hkind := by
    apply h.pairwise_children_of_tree fun left right =>
      left.1 = .variableDeclarator → right.1.keyword? = none
    intro address subtree hat hi
    apply (hplaced address subtree hat).declarators
    rw [h.category_of_kind address subtree hat i hi]
    exact hkind
  loopBinding i hkind := by
    apply h.pairwise_children_of_tree fun left right =>
      left.2.1 = some "left" → right.1.keyword? = none
    intro address subtree hat hi
    apply (hplaced address subtree hat).loopBinding
    rw [h.category_of_kind address subtree hat i hi]
    exact hkind

/-- A submission without nodes is well placed, as nothing is said of it. -/
theorem placed_of_size_eq_zero (submission : Submission) (h : submission.size = 0) :
    submission.Placed := by
  have hle (i : Nat) : submission.size ≤ i := h ▸ Nat.zero_le i
  have hnil (i : Nat) := children_of_size_le submission i (hle i)
  refine ⟨?_, fun i => inText_of_size_le submission i (hle i), ?_, ?_, ?_, ?_⟩
  · intro i j hparent
    have hlt := lt_size_of_parent submission i j hparent
    omega
  · intro i j hparent
    have hlt := lt_size_of_parent submission i j hparent
    omega
  all_goals
    intro i
    rw [hnil i]
    simp

/-- A submission is well placed when its parser's tree is. -/
theorem placed_ofParse (source : String) (parse : Parse)
    (h : parse.tree.Everywhere (Tree.WellPlaced source)) : (ofParse source parse).Placed := by
  cases hprune : parse.tree.prune with
  | none => exact placed_of_size_eq_zero _ (size_ofParse_of_prune_eq_none source parse hprune)
  | some kept =>
    refine (laysOut_ofParse source parse kept hprune).placed ?_
    exact h.prune hprune fun before after hkept hbefore => hbefore.prune hkept

end Submission

end Rubric
