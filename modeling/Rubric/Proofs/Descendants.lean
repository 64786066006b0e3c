import Rubric.Proofs.NodeLinks

/-!
The nodes below a node. The walk down from a node keeps a stack of nodes that are still to be
visited, and spends one unit of fuel on each. A subtree is passed with as much fuel as it has
nodes, and its nodes come out as consecutive indices. Whatever is collected from the nodes of such
a range is therefore collected by recursion on the subtree, where a node knows the one above it.
-/
namespace Rubric

open Grammar

namespace Grammar.Tree

variable {β : Type}

def above? (tree : Tree) (address : List Nat) : Option Tree :=
  if address = [] then none else tree.at? address.dropLast

theorem above?_concat (tree : Tree) (address : List Nat) (k : Nat) :
    tree.above? (address ++ [k]) = tree.at? address := by
  simp [above?]

mutual

/-- What a node and those below it contribute, each before those below it. A contribution may
depend on the node above. -/
def gather (own : Option Tree → Tree → List β) : Option Tree → Tree → List β
  | above, node label children =>
      own above (node label children) ++ gatherForest own (some (node label children)) children

def gatherForest (own : Option Tree → Tree → List β) : Option Tree → List Tree → List β
  | _, [] => []
  | above, tree :: rest => gather own above tree ++ gatherForest own above rest

end

mutual

/-- Nothing is collected where no node contributes. -/
theorem gather_eq_nil (P : Tree → Prop) (own : Option Tree → Tree → List β)
    (hown : ∀ above tree, P tree → own above tree = []) (above : Option Tree) (tree : Tree)
    (h : tree.Everywhere P) : gather own above tree = [] := by
  cases tree with
  | node label children =>
    rw [gather, hown above _ h.root,
      gatherForest_eq_nil P own hown (some (node label children)) children
        fun child hchild => h.of_mem_children child hchild]
    rfl

theorem gatherForest_eq_nil (P : Tree → Prop) (own : Option Tree → Tree → List β)
    (hown : ∀ above tree, P tree → own above tree = []) (above : Option Tree)
    (forest : List Tree) (h : ∀ tree ∈ forest, tree.Everywhere P) :
    gatherForest own above forest = [] := by
  cases forest with
  | nil => rfl
  | cons tree rest =>
    rw [gatherForest, gather_eq_nil P own hown above tree (h tree List.mem_cons_self),
      gatherForest_eq_nil P own hown above rest
        fun other hother => h other (List.mem_cons_of_mem tree hother)]
    rfl

end

/-- What is collected at a node is its own, followed by what is collected below it. -/
theorem gather_eq (own : Option Tree → Tree → List β) (above : Option Tree) (tree : Tree) :
    gather own above tree = own above tree ++ gatherForest own (some tree) tree.children := by
  cases tree with
  | node label children => rw [gather, Tree.children]

mutual

/-- Collecting from the indices of a subtree is collecting by recursion on it. -/
theorem flatMap_range'_eq_gather (tree : Tree) (f : Nat → List β)
    (own : Option Tree → Tree → List β)
    (hown : ∀ address subtree, tree.at? address = some subtree →
      f (tree.position address) = own (tree.above? address) subtree)
    (address : List Nat) (subtree : Tree) (hat : tree.at? address = some subtree) :
    (List.range' (tree.position address) subtree.size).flatMap f =
      gather own (tree.above? address) subtree := by
  cases subtree with
  | node label children =>
    have hforest := flatMap_range'_eq_gatherForest tree f own hown address _ hat 0 children rfl
    rw [List.take_zero, forestSize, Nat.add_zero] at hforest
    rw [size, Nat.add_comm, List.range'_succ, List.flatMap_cons, hforest, gather,
      hown address _ hat]

theorem flatMap_range'_eq_gatherForest (tree : Tree) (f : Nat → List β)
    (own : Option Tree → Tree → List β)
    (hown : ∀ address subtree, tree.at? address = some subtree →
      f (tree.position address) = own (tree.above? address) subtree)
    (address : List Nat) (parent : Tree) (hat : tree.at? address = some parent) (k : Nat)
    (forest : List Tree) (hforest : parent.children.drop k = forest) :
    (List.range' (tree.position address + 1 + forestSize (parent.children.take k))
        (forestSize forest)).flatMap f =
      gatherForest own (some parent) forest := by
  cases forest with
  | nil => rfl
  | cons child rest =>
    obtain ⟨hchild, hrest, hsize⟩ := drop_children_eq_cons parent child rest k hforest
    have hbelow := at?_child tree parent child address k hat hchild
    have hfirst := flatMap_range'_eq_gather tree f own hown (address ++ [k]) child hbelow
    have hothers := flatMap_range'_eq_gatherForest tree f own hown address parent hat (k + 1) rest
      hrest
    rw [position_concat tree parent address k hat, above?_concat, hat] at hfirst
    rw [hsize, ← Nat.add_assoc] at hothers
    rw [forestSize, ← List.range'_append_1, List.flatMap_append, hfirst, hothers, gatherForest]

end

end Grammar.Tree

/-- Selecting and mapping is one way of collecting. -/
theorem map_filter_eq_flatMap {α β : Type} (p : α → Bool) (g : α → β) (items : List α) :
    (items.filter p).map g = items.flatMap fun item => if p item then [g item] else [] := by
  induction items with
  | nil => rfl
  | cons item rest ih =>
    rw [List.filter_cons, List.flatMap_cons, ← ih]
    split <;> rfl

namespace Submission

theorem visit_nil (submission : Submission) (fuel : Nat) : submission.visit fuel [] = [] := by
  cases fuel <;> rfl

namespace LaysOut

variable {submission : Submission} {tree : Tree}

mutual

/-- A subtree on top of the stack is passed, its nodes are listed, and the walk goes on below it
on the stack. -/
theorem visit_subtree (h : submission.LaysOut tree) (address : List Nat) (subtree : Tree)
    (hat : tree.at? address = some subtree) (fuel : Nat) (stack : List Nat) :
    submission.visit (subtree.size + fuel) (tree.position address :: stack) =
      List.range' (tree.position address) subtree.size ++ submission.visit fuel stack := by
  cases subtree with
  | node label children =>
    obtain ⟨-, -, -, hchildren⟩ := h.node_at address _ hat
    have hforest := h.visit_forest address _ hat 0 children rfl fuel stack
    rw [List.take_zero, Tree.forestSize, Nat.add_zero] at hforest
    have hfuel : (Grammar.Tree.node label children).size + fuel =
        Tree.forestSize children + fuel + 1 := by
      rw [Tree.size]
      omega
    rw [hfuel, visit, hchildren, Tree.children, hforest, Tree.size,
      Nat.add_comm 1 (Tree.forestSize children), List.range'_succ, List.cons_append]

theorem visit_forest (h : submission.LaysOut tree) (address : List Nat) (parent : Tree)
    (hat : tree.at? address = some parent) (k : Nat) (forest : List Tree)
    (hforest : parent.children.drop k = forest) (fuel : Nat) (stack : List Nat) :
    submission.visit (Tree.forestSize forest + fuel)
        (rootIndices (tree.position address + 1 + Tree.forestSize (parent.children.take k)) forest
          ++ stack) =
      List.range' (tree.position address + 1 + Tree.forestSize (parent.children.take k))
          (Tree.forestSize forest) ++ submission.visit fuel stack := by
  cases forest with
  | nil => simp [rootIndices, Tree.forestSize]
  | cons child rest =>
    obtain ⟨hchild, hrest, hsize⟩ := Tree.drop_children_eq_cons parent child rest k hforest
    have hbelow := Tree.at?_child tree parent child address k hat hchild
    have hothers := h.visit_forest address parent hat (k + 1) rest hrest fuel stack
    rw [hsize, ← Nat.add_assoc] at hothers
    have hfirst := h.visit_subtree (address ++ [k]) child hbelow (Tree.forestSize rest + fuel)
      (rootIndices (tree.position (address ++ [k]) + child.size) rest ++ stack)
    rw [Tree.position_concat tree parent address k hat] at hfirst
    rw [rootIndices, Tree.forestSize, Nat.add_assoc child.size, List.cons_append, hfirst, hothers,
      ← List.append_assoc, List.range'_append_1]

end

/-- A node and everything below it have consecutive indices. -/
theorem descendants_eq (h : submission.LaysOut tree) (address : List Nat) (subtree : Tree)
    (hat : tree.at? address = some subtree) :
    submission.descendants (tree.position address) =
      List.range' (tree.position address) subtree.size := by
  have hle := Tree.position_add_size_le tree subtree address hat
  have hfuel : submission.size = subtree.size + (submission.size - subtree.size) := by
    rw [h.size_eq]
    omega
  rw [descendants, hfuel, h.visit_subtree address subtree hat, visit_nil, List.append_nil]

/-- The nodes met on the way down are those at the addresses that continue the first one. -/
theorem mem_descendants (h : submission.LaysOut tree) (address : List Nat) (subtree : Tree)
    (hat : tree.at? address = some subtree) (j : Nat) :
    j ∈ submission.descendants (tree.position address) ↔
      ∃ below node, subtree.at? below = some node ∧ tree.position (address ++ below) = j := by
  rw [h.descendants_eq address subtree hat, List.mem_range'_1]
  constructor
  · rintro ⟨hle, hlt⟩
    obtain ⟨below, node, hnode, hposition⟩ :=
      Tree.exists_position_eq subtree (j - tree.position address) (by omega)
    refine ⟨below, node, hnode, ?_⟩
    rw [Tree.position_append tree subtree address below hat, hposition]
    omega
  · rintro ⟨below, node, hnode, rfl⟩
    have hlt := Tree.position_lt_size subtree node below hnode
    rw [Tree.position_append tree subtree address below hat]
    omega

/-- With a node, its children are met. -/
theorem children_mem_descendants (h : submission.LaysOut tree) (i j k : Nat)
    (hi : i < submission.size) (hj : j ∈ submission.descendants i)
    (hk : k ∈ submission.children j) : k ∈ submission.descendants i := by
  obtain ⟨address, subtree, hat, rfl⟩ := h.exists_address i hi
  obtain ⟨below, node, hnode, rfl⟩ := (h.mem_descendants address subtree hat j).mp hj
  obtain ⟨m, hm⟩ := List.getElem?_of_mem hk
  have hwhole : tree.at? (address ++ below) = some node := by
    rw [Tree.at?_append tree subtree address below hat, hnode]
  obtain ⟨child, hchild, -, rfl⟩ := h.child_at (address ++ below) node hwhole m k hm
  refine (h.mem_descendants address subtree hat _).mpr ⟨below ++ [m], child, ?_, ?_⟩
  · exact Tree.at?_child subtree node child below m hnode hchild
  · rw [List.append_assoc]

/-- Whatever can be read off a node and the one above it is collected from the nodes on the way
down by recursion on the subtree. -/
theorem flatMap_descendants {β : Type} (h : submission.LaysOut tree) (f : Nat → List β)
    (own : Option Tree → Tree → List β)
    (hown : ∀ address subtree, tree.at? address = some subtree →
      f (tree.position address) = own (tree.above? address) subtree)
    (address : List Nat) (subtree : Tree) (hat : tree.at? address = some subtree) :
    (submission.descendants (tree.position address)).flatMap f =
      Tree.gather own (tree.above? address) subtree := by
  rw [h.descendants_eq address subtree hat,
    Tree.flatMap_range'_eq_gather tree f own hown address subtree hat]

end LaysOut

end Submission

end Rubric
