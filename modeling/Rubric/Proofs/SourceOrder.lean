import Rubric.Proofs.PlacedNodes

/-!
Document order and source order. In a tree whose spans are nested, with siblings one after
another, a node starts no later than the nodes below it, and everything in a subtree starts before
the next sibling does. So the starts of the nodes in pre-order never decrease, and the nodes of a
submission, which stand in pre-order without the missing ones, start in the order of their
indices.
-/
namespace Rubric

open Grammar

namespace Grammar.Tree

/-- The children of a node cover ranges inside the node's, one after another. -/
@[mk_iff]
structure Nested (tree : Tree) : Prop where
  inside : ∀ child ∈ tree.children, tree.label.span.start ≤ child.label.span.start ∧
    child.label.span.start ≤ child.label.span.stop ∧
    child.label.span.stop ≤ tree.label.span.stop
  siblings : tree.children.Pairwise fun left right =>
    left.label.span.stop ≤ right.label.span.start

instance (tree : Tree) : Decidable tree.Nested := decidable_of_iff _ (nested_iff tree).symm

theorem Nested.prune {tree kept : Tree} (h : tree.Nested) (hkept : tree.prune = some kept) :
    kept.Nested where
  inside := by
    intro child hchild
    rw [(prune_eq_some tree kept hkept).2] at hchild
    obtain ⟨original, hmem, hprune⟩ := List.mem_filterMap.mp hchild
    rw [(prune_eq_some tree kept hkept).1, (prune_eq_some original child hprune).1]
    exact h.inside original hmem
  siblings := pairwise_children_prune (fun left right => left.span.stop ≤ right.span.start)
    tree kept hkept h.siblings

mutual

/-- Whatever stands in a subtree starts inside its span. -/
theorem start_of_mem_preorder (tree : Tree) (h : tree.Everywhere Nested)
    (hordered : tree.label.span.start ≤ tree.label.span.stop) (label : Label)
    (hlabel : label ∈ tree.preorder) :
    tree.label.span.start ≤ label.span.start ∧ label.span.start ≤ tree.label.span.stop := by
  cases tree with
  | node top children =>
    rw [preorder, List.mem_cons] at hlabel
    rcases hlabel with rfl | hbelow
    · exact ⟨Nat.le_refl _, hordered⟩
    · obtain ⟨child, hchild, hstart, hstop⟩ :=
        start_of_mem_forestPreorder children
          (fun child hchild => h.of_mem_children child hchild)
          (fun child hchild => (h.root.inside child hchild).2.1) label hbelow
      have hinside := h.root.inside child hchild
      omega

theorem start_of_mem_forestPreorder (forest : List Tree)
    (h : ∀ tree ∈ forest, tree.Everywhere Nested)
    (hordered : ∀ tree ∈ forest, tree.label.span.start ≤ tree.label.span.stop) (label : Label)
    (hlabel : label ∈ forestPreorder forest) :
    ∃ tree ∈ forest, tree.label.span.start ≤ label.span.start ∧
      label.span.start ≤ tree.label.span.stop := by
  cases forest with
  | nil => simp [forestPreorder] at hlabel
  | cons first rest =>
    rw [forestPreorder, List.mem_append] at hlabel
    rcases hlabel with hfirst | hrest
    · exact ⟨first, List.mem_cons_self, start_of_mem_preorder first (h first List.mem_cons_self)
        (hordered first List.mem_cons_self) label hfirst⟩
    · obtain ⟨tree, htree, hspan⟩ := start_of_mem_forestPreorder rest
        (fun tree htree => h tree (List.mem_cons_of_mem first htree))
        (fun tree htree => hordered tree (List.mem_cons_of_mem first htree)) label hrest
      exact ⟨tree, List.mem_cons_of_mem first htree, hspan⟩

end

mutual

/-- Along the pre-order of nested spans, starts never decrease. -/
theorem pairwise_start_preorder (tree : Tree) (h : tree.Everywhere Nested) :
    tree.preorder.Pairwise fun left right => left.span.start ≤ right.span.start := by
  cases tree with
  | node top children =>
    have heach (child : Tree) (hchild : child ∈ children) : child.Everywhere Nested :=
      h.of_mem_children child hchild
    have hordered (child : Tree) (hchild : child ∈ children) :
        child.label.span.start ≤ child.label.span.stop :=
      (h.root.inside child hchild).2.1
    rw [preorder, List.pairwise_cons]
    refine ⟨?_, pairwise_start_forestPreorder children heach hordered h.root.siblings⟩
    intro label hlabel
    obtain ⟨child, hchild, hstart, -⟩ :=
      start_of_mem_forestPreorder children heach hordered label hlabel
    have hinside : top.span.start ≤ child.label.span.start := (h.root.inside child hchild).1
    omega

theorem pairwise_start_forestPreorder (forest : List Tree)
    (h : ∀ tree ∈ forest, tree.Everywhere Nested)
    (hordered : ∀ tree ∈ forest, tree.label.span.start ≤ tree.label.span.stop)
    (hsiblings : forest.Pairwise fun left right =>
      left.label.span.stop ≤ right.label.span.start) :
    (forestPreorder forest).Pairwise fun left right => left.span.start ≤ right.span.start := by
  cases forest with
  | nil => exact List.Pairwise.nil
  | cons first rest =>
    have hrest (tree : Tree) (htree : tree ∈ rest) : tree.Everywhere Nested :=
      h tree (List.mem_cons_of_mem first htree)
    have hrestOrdered (tree : Tree) (htree : tree ∈ rest) :
        tree.label.span.start ≤ tree.label.span.stop :=
      hordered tree (List.mem_cons_of_mem first htree)
    obtain ⟨hafter, hlater⟩ := List.pairwise_cons.mp hsiblings
    rw [forestPreorder, List.pairwise_append]
    refine ⟨pairwise_start_preorder first (h first List.mem_cons_self),
      pairwise_start_forestPreorder rest hrest hrestOrdered hlater, ?_⟩
    -- What stands in the first tree starts before it stops, and the others start after that.
    intro left hleft right hright
    have hstop := (start_of_mem_preorder first (h first List.mem_cons_self)
      (hordered first List.mem_cons_self) left hleft).2
    obtain ⟨tree, htree, hstart, -⟩ :=
      start_of_mem_forestPreorder rest hrest hrestOrdered right hright
    have hbetween := hafter tree htree
    omega

end

end Grammar.Tree

namespace Submission

def StartsInOrder (submission : Submission) : Prop :=
  submission.indices.Pairwise fun i j => (submission.span i).start ≤ (submission.span j).start

theorem map_span_indices (submission : Submission) :
    submission.indices.map submission.span = submission.nodes.toList.map Node.span := by
  apply List.ext_getElem
  · simp [indices, size]
  · intro i hleft hright
    have hi : i < submission.nodes.size := by simpa [indices, size] using hleft
    simp [indices, span, hi]

theorem LaysOut.startsInOrder {submission : Submission} {tree : Tree}
    (h : submission.LaysOut tree) (hnested : tree.Everywhere Tree.Nested) :
    submission.StartsInOrder := by
  have hspans : submission.indices.map submission.span =
      tree.preorder.map fun label => label.span := by
    have hcontent := congrArg (List.map fun content => content.2.2) (content_flatten 0 none tree)
    rw [List.map_map, List.map_map] at hcontent
    rw [map_span_indices, h]
    exact hcontent
  unfold StartsInOrder
  rw [← List.pairwise_map (R := fun left right : Span => left.start ≤ right.start), hspans,
    List.pairwise_map]
  exact Tree.pairwise_start_preorder tree hnested

/-- Over a tree of nested spans, nodes start in the order of their indices. -/
theorem startsInOrder_ofParse (source : String) (parse : Parse)
    (h : parse.tree.Everywhere Tree.Nested) : (ofParse source parse).StartsInOrder := by
  cases hprune : parse.tree.prune with
  | none =>
    have hsize := size_ofParse_of_prune_eq_none source parse hprune
    simp [StartsInOrder, indices, hsize]
  | some kept =>
    refine (laysOut_ofParse source parse kept hprune).startsInOrder ?_
    exact h.prune hprune fun before after hkept hbefore => hbefore.prune hkept

end Submission

end Rubric
