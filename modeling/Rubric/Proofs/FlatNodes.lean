import Mathlib.Data.List.Induction
import Rubric.Proofs.TreeAddresses
import Rubric.Submission.Basic

/-!
A tree laid out as a flat list of nodes by recursion on the tree. The nodes of a subtree stand
next to each other, so its root's index and the sizes of the trees before a child give the
child's index. A segment of a list that holds a subtree determines the node at its start, and
contains a segment for every subtree below it.
-/
namespace Rubric.Submission

open Grammar

def Node.ofLabel (label : Label) (parent : Option Nat) (children : List Nat) : Node :=
  ⟨NodeKind.ofGrammar label.kind label.named, label.field, label.span, parent, children⟩

def rootIndices : Nat → List Tree → List Nat
  | _, [] => []
  | start, tree :: rest => start :: rootIndices (start + tree.size) rest

mutual

/-- The nodes of a tree whose root has index `start`. -/
def flatten : Nat → Option Nat → Tree → List Node
  | start, parent, .node label children =>
      Node.ofLabel label parent (rootIndices (start + 1) children) ::
        flattenForest (start + 1) (some start) children

def flattenForest : Nat → Option Nat → List Tree → List Node
  | _, _, [] => []
  | start, parent, tree :: rest =>
      flatten start parent tree ++ flattenForest (start + tree.size) parent rest

end

theorem rootIndices_append (start : Nat) (left right : List Tree) :
    rootIndices start (left ++ right) =
      rootIndices start left ++ rootIndices (start + Tree.forestSize left) right := by
  induction left generalizing start with
  | nil => simp [rootIndices, Tree.forestSize]
  | cons tree rest ih =>
    simp only [List.cons_append, rootIndices, ih, Tree.forestSize, Nat.add_assoc]

theorem flattenForest_append (start : Nat) (parent : Option Nat) (left right : List Tree) :
    flattenForest start parent (left ++ right) = flattenForest start parent left ++
      flattenForest (start + Tree.forestSize left) parent right := by
  induction left generalizing start with
  | nil => simp [flattenForest, Tree.forestSize]
  | cons tree rest ih =>
    simp only [List.cons_append, flattenForest, ih, Tree.forestSize, List.append_assoc,
      Nat.add_assoc]

mutual

theorem length_flatten (start : Nat) (parent : Option Nat) (tree : Tree) :
    (flatten start parent tree).length = tree.size := by
  cases tree with
  | node label children =>
    simp only [flatten, List.length_cons, Tree.size, length_flattenForest (start + 1) _ children]
    omega

theorem length_flattenForest (start : Nat) (parent : Option Nat) (forest : List Tree) :
    (flattenForest start parent forest).length = Tree.forestSize forest := by
  cases forest with
  | nil => rfl
  | cons tree rest =>
    simp only [flattenForest, List.length_append, Tree.forestSize, length_flatten start parent tree,
      length_flattenForest (start + tree.size) parent rest]

end

mutual

/-- Category, field and span of the nodes, in pre-order. -/
theorem content_flatten (start : Nat) (parent : Option Nat) (tree : Tree) :
    (flatten start parent tree).map (fun node => (node.kind, node.field, node.span)) =
      tree.preorder.map fun label =>
        (NodeKind.ofGrammar label.kind label.named, label.field, label.span) := by
  cases tree with
  | node label children =>
    rw [flatten, Tree.preorder, List.map_cons, List.map_cons,
      content_flattenForest (start + 1) (some start) children]
    rfl

theorem content_flattenForest (start : Nat) (parent : Option Nat) (forest : List Tree) :
    (flattenForest start parent forest).map (fun node => (node.kind, node.field, node.span)) =
      (Tree.forestPreorder forest).map fun label =>
        (NodeKind.ofGrammar label.kind label.named, label.field, label.span) := by
  cases forest with
  | nil => rfl
  | cons tree rest =>
    rw [flattenForest, Tree.forestPreorder, List.map_append, List.map_append,
      content_flatten start parent tree, content_flattenForest (start + tree.size) parent rest]

end

theorem getElem?_rootIndices (start : Nat) (forest : List Tree) (k i : Nat) :
    (rootIndices start forest)[k]? = some i ↔
      k < forest.length ∧ start + Tree.forestSize (forest.take k) = i := by
  induction forest generalizing start k with
  | nil => simp [rootIndices]
  | cons tree rest ih =>
    cases k with
    | zero => simp [rootIndices, Tree.forestSize]
    | succ k =>
      simp only [rootIndices, List.getElem?_cons_succ, ih, List.length_cons,
        Nat.add_lt_add_iff_right, List.take_succ_cons, Tree.forestSize, Nat.add_assoc]

theorem length_rootIndices (start : Nat) (forest : List Tree) :
    (rootIndices start forest).length = forest.length := by
  induction forest generalizing start with
  | nil => rfl
  | cons tree rest ih => simp only [rootIndices, List.length_cons, ih]

theorem start_le_of_mem_rootIndices (start : Nat) (forest : List Tree) (i : Nat)
    (h : i ∈ rootIndices start forest) : start ≤ i := by
  obtain ⟨k, hk⟩ := List.getElem?_of_mem h
  have hi := ((getElem?_rootIndices start forest k i).mp hk).2
  omega

theorem pairwise_rootIndices (start : Nat) (forest : List Tree) :
    (rootIndices start forest).Pairwise (· < ·) := by
  induction forest generalizing start with
  | nil => exact List.Pairwise.nil
  | cons tree rest ih =>
    rw [rootIndices, List.pairwise_cons]
    refine ⟨?_, ih (start + tree.size)⟩
    intro i hi
    have hle := start_le_of_mem_rootIndices (start + tree.size) rest i hi
    have hpos := tree.size_pos
    omega

/-- The part of a list of nodes that starts at index `i` is the layout of a tree. -/
def Segment (nodes : List Node) (i : Nat) (parent : Option Nat) (tree : Tree) : Prop :=
  ∃ before after, nodes = before ++ flatten i parent tree ++ after ∧ before.length = i

namespace Segment

variable {nodes : List Node} {i : Nat} {parent : Option Nat} {tree : Tree}

theorem whole (parent : Option Nat) (tree : Tree) :
    Segment (flatten 0 parent tree) 0 parent tree :=
  ⟨[], [], by simp, rfl⟩

theorem getElem? (h : Segment nodes i parent tree) :
    nodes[i]? = some (Node.ofLabel tree.label parent (rootIndices (i + 1) tree.children)) := by
  obtain ⟨before, after, rfl, rfl⟩ := h
  obtain ⟨label, children⟩ := tree
  rw [List.append_assoc, List.getElem?_append_right (Nat.le_refl _)]
  simp [flatten, Tree.label, Tree.children]

theorem child (h : Segment nodes i parent tree) (k : Nat) (child : Tree)
    (hchild : tree.children[k]? = some child) :
    Segment nodes (i + 1 + Tree.forestSize (tree.children.take k)) (some i) child := by
  obtain ⟨before, after, rfl, rfl⟩ := h
  obtain ⟨label, children⟩ := tree
  obtain ⟨hsplit, -⟩ := Tree.split_child children k child hchild
  have happend := flattenForest_append (before.length + 1) (some before.length)
    (children.take k) (child :: children.drop (k + 1))
  rw [← hsplit, flattenForest] at happend
  refine ⟨before ++ Node.ofLabel label parent (rootIndices (before.length + 1) children) ::
      flattenForest (before.length + 1) (some before.length) (children.take k),
    flattenForest (before.length + 1 + Tree.forestSize (children.take k) + child.size)
      (some before.length) (children.drop (k + 1)) ++ after, ?_, ?_⟩
  · simp [flatten, happend, Tree.children]
  · simp only [List.length_append, List.length_cons, length_flattenForest, Tree.children]
    omega

end Segment

/-- Every subtree of a tree laid out from index zero has a segment, at the index that counts the
nodes before it. -/
theorem segment_position (tree subtree : Tree) (address : List Nat)
    (h : tree.at? address = some subtree) :
    ∃ parent, Segment (flatten 0 none tree) (tree.position address) parent subtree := by
  induction address using List.reverseRecOn generalizing subtree with
  | nil =>
    simp only [Tree.at?, Option.some.injEq] at h
    subst h
    exact ⟨none, Segment.whole none tree⟩
  | append_singleton address k ih =>
    obtain ⟨above, habove, hchild⟩ := Tree.at?_concat tree subtree address k h
    obtain ⟨parent, hsegment⟩ := ih above habove
    refine ⟨some (tree.position address), ?_⟩
    rw [Tree.position_concat tree above address k habove]
    exact hsegment.child k subtree hchild

end Rubric.Submission
