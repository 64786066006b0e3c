import Mathlib.Data.List.Perm.Basic
import Mathlib.Data.List.Range
import Rubric.Proofs.CursorWalk

/-!
Parents and children of the nodes of a submission. A submission that lays out a tree has, at each
index, the node at that place of the pre-order, and its links are those of the tree: the indices
of a node's children are the places of the addresses one step longer. Every submission lays out
its parser's tree without the missing nodes.
-/
namespace Rubric.Submission

open Grammar

theorem children_of_size_le (submission : Submission) (i : Nat) (h : submission.size ≤ i) :
    submission.children i = [] := by
  have hnone : submission.nodes[i]? = none := Array.getElem?_eq_none h
  simp only [children, hnone]

theorem lt_size_of_mem_children (submission : Submission) (i j : Nat)
    (h : j ∈ submission.children i) : i < submission.size := by
  by_contra hout
  rw [children_of_size_le submission i (Nat.le_of_not_lt hout)] at h
  exact List.not_mem_nil h

/-- Only an index of a node has a parent. -/
theorem lt_size_of_parent (submission : Submission) (i j : Nat)
    (h : submission.parent j = some i) : j < submission.size := by
  obtain ⟨node, hnode, -⟩ := Option.bind_eq_some_iff.mp h
  exact (Array.getElem?_eq_some_iff.mp hnode).1

def LaysOut (submission : Submission) (tree : Tree) : Prop :=
  submission.nodes.toList = flatten 0 none tree

namespace LaysOut

variable {submission : Submission} {tree : Tree}

theorem size_eq (h : submission.LaysOut tree) : submission.size = tree.size := by
  have hlength := congrArg List.length h
  simpa only [Submission.size, Array.length_toList, length_flatten] using hlength

theorem node_of_segment (h : submission.LaysOut tree) (i : Nat) (parent : Option Nat)
    (subtree : Tree) (hsegment : Segment (flatten 0 none tree) i parent subtree) :
    submission.nodes[i]? =
      some (Node.ofLabel subtree.label parent (rootIndices (i + 1) subtree.children)) := by
  rw [← Array.getElem?_toList, h]
  exact hsegment.getElem?

/-- Every index is the place of an address. -/
theorem exists_address (h : submission.LaysOut tree) (i : Nat) (hi : i < submission.size) :
    ∃ address subtree, tree.at? address = some subtree ∧ tree.position address = i := by
  rw [h.size_eq] at hi
  exact Tree.exists_position_eq tree i hi

/-- What the accessors say at the place of an address. -/
theorem node_at (h : submission.LaysOut tree) (address : List Nat) (subtree : Tree)
    (hat : tree.at? address = some subtree) :
    submission.kind (tree.position address) =
        NodeKind.ofGrammar subtree.label.kind subtree.label.named ∧
      submission.field (tree.position address) = subtree.label.field ∧
      submission.span (tree.position address) = subtree.label.span ∧
      submission.children (tree.position address) =
        rootIndices (tree.position address + 1) subtree.children := by
  obtain ⟨parent, hsegment⟩ := segment_position tree subtree address hat
  have hnode := h.node_of_segment _ parent subtree hsegment
  simp only [kind, field, span, children, hnode, Option.bind_some, Node.ofLabel, and_self]

theorem parent_root (h : submission.LaysOut tree) : submission.parent 0 = none := by
  have hnode := h.node_of_segment 0 none tree (Segment.whole none tree)
  simp only [parent, hnode, Option.bind_some, Node.ofLabel]

theorem parent_concat (h : submission.LaysOut tree) (address : List Nat) (k : Nat)
    (child : Tree) (hat : tree.at? (address ++ [k]) = some child) :
    submission.parent (tree.position (address ++ [k])) = some (tree.position address) := by
  obtain ⟨above, habove, hchild⟩ := Tree.at?_concat tree child address k hat
  obtain ⟨parent, hsegment⟩ := segment_position tree above address habove
  have hnode := h.node_of_segment _ _ child (hsegment.child k child hchild)
  rw [Tree.position_concat tree above address k habove]
  simp only [Submission.parent, hnode, Option.bind_some, Node.ofLabel]

/-- Stepping to a child of an index is stepping to the child in the tree. -/
theorem child_at (h : submission.LaysOut tree) (address : List Nat) (subtree : Tree)
    (hat : tree.at? address = some subtree) (k j : Nat)
    (hchild : (submission.children (tree.position address))[k]? = some j) :
    ∃ child, subtree.children[k]? = some child ∧ tree.at? (address ++ [k]) = some child ∧
      tree.position (address ++ [k]) = j := by
  obtain ⟨-, -, -, hchildren⟩ := h.node_at address subtree hat
  rw [hchildren, getElem?_rootIndices] at hchild
  obtain ⟨hk, rfl⟩ := hchild
  have hget := List.getElem?_eq_getElem hk
  exact ⟨_, hget, Tree.at?_child tree subtree _ address k hat hget,
    Tree.position_concat tree subtree address k hat⟩

/-- Children stand in the order of the tree's. -/
theorem getElem?_children (h : submission.LaysOut tree) (i j k : Nat) :
    (submission.children i)[k]? = some j ↔
      ∃ address, tree.addresses[i]? = some address ∧
        tree.addresses[j]? = some (address ++ [k]) := by
  constructor
  · intro hchild
    have hi := lt_size_of_mem_children submission i j (List.mem_of_getElem? hchild)
    obtain ⟨address, subtree, hat, rfl⟩ := h.exists_address i hi
    obtain ⟨child, -, hbelow, rfl⟩ := h.child_at address subtree hat k j hchild
    exact ⟨address, Tree.getElem?_addresses_position tree subtree address hat,
      Tree.getElem?_addresses_position tree child _ hbelow⟩
  · rintro ⟨address, hi, hj⟩
    obtain ⟨⟨child, hchild⟩, rfl⟩ := (Tree.getElem?_addresses tree j _).mp hj
    obtain ⟨subtree, hat, hbelow⟩ := Tree.at?_concat tree child address k hchild
    obtain ⟨-, rfl⟩ := (Tree.getElem?_addresses tree i address).mp hi
    obtain ⟨-, -, -, hchildren⟩ := h.node_at address subtree hat
    rw [hchildren, getElem?_rootIndices, Tree.position_concat tree subtree address k hat]
    exact ⟨(List.getElem?_eq_some_iff.mp hbelow).1, rfl⟩

/-- Whatever can be read off the node at an address can be read off its children together. -/
theorem map_children {β : Type} (h : submission.LaysOut tree) (f : Nat → β) (g : Tree → β)
    (hfg : ∀ address subtree, tree.at? address = some subtree →
      f (tree.position address) = g subtree)
    (address : List Nat) (subtree : Tree) (hat : tree.at? address = some subtree) :
    (submission.children (tree.position address)).map f = subtree.children.map g := by
  have hlength : (submission.children (tree.position address)).length =
      subtree.children.length := by
    obtain ⟨-, -, -, hchildren⟩ := h.node_at address subtree hat
    rw [hchildren, length_rootIndices]
  apply List.ext_getElem
  · rw [List.length_map, List.length_map, hlength]
  · intro k hleft hright
    rw [List.length_map] at hleft hright
    obtain ⟨child, hchild, hbelow, hposition⟩ := h.child_at address subtree hat k _
      (List.getElem?_eq_getElem hleft)
    rw [List.getElem_map, List.getElem_map, ← hposition, hfg _ child hbelow]
    exact congrArg g (List.getElem?_eq_some_iff.mp hchild).2.symm

/-- The first child with a property is the same in the submission and in the tree. -/
theorem find?_children (h : submission.LaysOut tree) (p : Nat → Bool) (q : Tree → Bool)
    (hpq : ∀ address subtree, tree.at? address = some subtree →
      p (tree.position address) = q subtree)
    (address : List Nat) (subtree : Tree) (hat : tree.at? address = some subtree) :
    (subtree.children.find? q = none ∧
        (submission.children (tree.position address)).find? p = none) ∨
      ∃ k child, subtree.children.find? q = some child ∧
        tree.at? (address ++ [k]) = some child ∧
        (submission.children (tree.position address)).find? p =
          some (tree.position (address ++ [k])) := by
  have hmap := h.map_children p q hpq address subtree hat
  cases hfind : (submission.children (tree.position address)).find? p with
  | none =>
    refine Or.inl ⟨?_, rfl⟩
    rw [List.find?_eq_none] at hfind ⊢
    intro child hchild hq
    obtain ⟨j, hj, hpj⟩ := List.mem_map.mp (hmap ▸ List.mem_map_of_mem hchild)
    exact hfind j hj (hpj.trans hq)
  | some j =>
    obtain ⟨hp, k, hk, rfl, hbefore⟩ := List.find?_eq_some_iff_getElem.mp hfind
    obtain ⟨child, hchild, hbelow, hposition⟩ :=
      h.child_at address subtree hat k _ (List.getElem?_eq_getElem hk)
    obtain ⟨hlt, rfl⟩ := List.getElem?_eq_some_iff.mp hchild
    refine Or.inr ⟨k, _, ?_, hbelow, congrArg some hposition.symm⟩
    refine List.find?_eq_some_iff_getElem.mpr ⟨?_, k, hlt, rfl, ?_⟩
    · rw [← hpq _ _ hbelow, hposition, hp]
    · intro m hm
      have hget := congrArg (·[m]?) hmap
      simp only [List.getElem?_map, List.getElem?_eq_getElem (Nat.lt_trans hm hk),
        List.getElem?_eq_getElem (Nat.lt_trans hm hlt), Option.map_some, Option.some.injEq] at hget
      rw [← hget]
      exact hbefore m hm

theorem parent_eq_some (h : submission.LaysOut tree) (i j : Nat) :
    submission.parent j = some i ↔
      ∃ address k, tree.addresses[i]? = some address ∧
        tree.addresses[j]? = some (address ++ [k]) := by
  constructor
  · intro hparent
    have hj := lt_size_of_parent submission i j hparent
    obtain ⟨below, child, hat, rfl⟩ := h.exists_address j hj
    rcases List.eq_nil_or_concat below with rfl | ⟨address, k, rfl⟩
    · rw [Tree.position, h.parent_root] at hparent
      simp at hparent
    · rw [List.concat_eq_append] at hat hparent ⊢
      rw [h.parent_concat address k child hat, Option.some.injEq] at hparent
      subst hparent
      obtain ⟨above, habove, -⟩ := Tree.at?_concat tree child address k hat
      exact ⟨address, k, Tree.getElem?_addresses_position tree above address habove,
        Tree.getElem?_addresses_position tree child _ hat⟩
  · rintro ⟨address, k, hi, hj⟩
    obtain ⟨⟨child, hchild⟩, rfl⟩ := (Tree.getElem?_addresses tree j _).mp hj
    obtain ⟨-, rfl⟩ := (Tree.getElem?_addresses tree i address).mp hi
    exact h.parent_concat address k child hchild

theorem parent_eq_some_iff_mem (h : submission.LaysOut tree) (i j : Nat) :
    submission.parent j = some i ↔ j ∈ submission.children i := by
  rw [h.parent_eq_some, List.mem_iff_getElem?, exists_comm]
  simp only [h.getElem?_children]

theorem parent_eq_none (h : submission.LaysOut tree) (i : Nat) (hi : i < submission.size) :
    submission.parent i = none ↔ i = 0 := by
  constructor
  · intro hnone
    obtain ⟨address, subtree, hat, rfl⟩ := h.exists_address i hi
    rcases List.eq_nil_or_concat address with rfl | ⟨above, k, rfl⟩
    · rfl
    · rw [List.concat_eq_append] at hat hnone
      rw [h.parent_concat above k subtree hat] at hnone
      simp at hnone
  · rintro rfl
    exact h.parent_root

theorem pairwise_children (h : submission.LaysOut tree) (i : Nat) :
    (i :: submission.children i).Pairwise (· < ·) := by
  by_cases hi : i < submission.size
  · obtain ⟨address, subtree, hat, rfl⟩ := h.exists_address i hi
    obtain ⟨-, -, -, hchildren⟩ := h.node_at address subtree hat
    rw [hchildren, List.pairwise_cons]
    refine ⟨?_, pairwise_rootIndices _ _⟩
    intro j hj
    exact start_le_of_mem_rootIndices _ _ j hj
  · rw [children_of_size_le submission i (Nat.le_of_not_lt hi)]
    exact List.pairwise_singleton _ i

/-- Every node but the root is the child of exactly one node, and stands there once. -/
theorem perm_children (h : submission.LaysOut tree) :
    (submission.indices.flatMap submission.children).Perm
      (List.range' 1 (submission.size - 1)) := by
  have hnodup : (submission.indices.flatMap submission.children).Nodup := by
    rw [List.nodup_flatMap]
    refine ⟨?_, ?_⟩
    · intro i _
      exact (h.pairwise_children i).of_cons.imp Nat.ne_of_lt
    · refine List.Pairwise.imp ?_ List.pairwise_lt_range
      intro i j hij k hik hjk
      rw [← h.parent_eq_some_iff_mem] at hik hjk
      have heq : i = j := Option.some.inj (hik.symm.trans hjk)
      omega
  rw [List.perm_ext_iff_of_nodup hnodup (List.nodup_range' ..)]
  intro j
  rw [List.mem_flatMap, List.mem_range'_1]
  constructor
  · rintro ⟨i, -, hj⟩
    have hlt : i < j := (List.pairwise_cons.mp (h.pairwise_children i)).1 j hj
    have hsize := lt_size_of_parent submission i j ((h.parent_eq_some_iff_mem i j).mpr hj)
    omega
  · rintro ⟨hpos, hlt⟩
    have hj : j < submission.size := by omega
    cases hparent : submission.parent j with
    | none =>
      have hroot := (h.parent_eq_none j hj).mp hparent
      omega
    | some i =>
      have hmem := (h.parent_eq_some_iff_mem i j).mp hparent
      have hi : i < j := (List.pairwise_cons.mp (h.pairwise_children i)).1 j hmem
      exact ⟨i, List.mem_range.mpr (by omega), hmem⟩

end LaysOut

theorem laysOut_ofParse (source : String) (parse : Parse) (kept : Tree)
    (h : parse.tree.prune = some kept) : (ofParse source parse).LaysOut kept := by
  rw [LaysOut, toList_nodes_ofParse, h]
  simp [flattenForest]

/-- Nothing is left of a tree whose root is missing. -/
theorem size_ofParse_of_prune_eq_none (source : String) (parse : Parse)
    (h : parse.tree.prune = none) : (ofParse source parse).size = 0 := by
  rw [size, ← Array.length_toList, toList_nodes_ofParse, h]
  rfl

def Linked (submission : Submission) : Prop :=
  ∀ i j, submission.parent j = some i ↔ j ∈ submission.children i

theorem Linked.parent_of_childByField {submission : Submission} (h : submission.Linked)
    (i child : Nat) (field : String) (hchild : submission.childByField i field = some child) :
    submission.parent child = some i :=
  (h i child).mpr (List.mem_of_find?_eq_some hchild)

theorem linked_ofParse (source : String) (parse : Parse) : (ofParse source parse).Linked := by
  cases hprune : parse.tree.prune with
  | some kept => exact (laysOut_ofParse source parse kept hprune).parent_eq_some_iff_mem
  | none =>
    have hsize := size_ofParse_of_prune_eq_none source parse hprune
    intro i j
    rw [children_of_size_le _ i (by omega)]
    refine iff_of_false ?_ List.not_mem_nil
    intro hparent
    have hlt := lt_size_of_parent _ i j hparent
    omega

/-- A submission shows a tree: node `i` is the node at the `i`-th address in pre-order, and its
links are the steps from address to address. -/
structure Represents (submission : Submission) (tree : Tree) : Prop where
  content : submission.nodes.toList.map (fun node => (node.kind, node.field, node.span)) =
    tree.preorder.map fun label =>
      (NodeKind.ofGrammar label.kind label.named, label.field, label.span)
  addressed : ∀ i < submission.size, ∃ address subtree, tree.addresses[i]? = some address ∧
    tree.at? address = some subtree ∧ tree.preorder[i]? = some subtree.label
  root : tree.addresses[0]? = some [] ∧
    ∀ i < submission.size, submission.parent i = none ↔ i = 0
  parent_iff_mem : ∀ i j, submission.parent j = some i ↔ j ∈ submission.children i
  parent_iff_above : ∀ i j, submission.parent j = some i ↔
    ∃ address k, tree.addresses[i]? = some address ∧
      tree.addresses[j]? = some (address ++ [k])
  children_in_order : ∀ i j k, (submission.children i)[k]? = some j ↔
    ∃ address, tree.addresses[i]? = some address ∧ tree.addresses[j]? = some (address ++ [k])
  increasing : ∀ i, (i :: submission.children i).Pairwise (· < ·)
  once : (submission.indices.flatMap submission.children).Perm
    (List.range' 1 (submission.size - 1))

theorem LaysOut.represents {submission : Submission} {tree : Tree}
    (h : submission.LaysOut tree) : submission.Represents tree where
  content := by rw [h, content_flatten]
  addressed i hi := by
    obtain ⟨address, subtree, hat, rfl⟩ := h.exists_address i hi
    exact ⟨address, subtree, Tree.getElem?_addresses_position tree subtree address hat, hat,
      Tree.getElem?_preorder_position tree subtree address hat⟩
  root := ⟨(Tree.getElem?_addresses tree 0 []).mpr ⟨⟨tree, rfl⟩, rfl⟩, h.parent_eq_none⟩
  parent_iff_mem := h.parent_eq_some_iff_mem
  parent_iff_above := h.parent_eq_some
  children_in_order := h.getElem?_children
  increasing := h.pairwise_children
  once := h.perm_children

/-- The walk over a tree whose root is present shows the tree without its missing nodes, so
missing nodes make no difference. -/
theorem ofParse_represents_pruned (source : String) (parse : Parse)
    (hroot : parse.tree.label.missing = false) :
    ∃ kept, parse.tree.prune = some kept ∧ (ofParse source parse).Represents kept ∧
      ∀ (source' : String) (other : Parse), other.tree.prune = parse.tree.prune →
        (ofParse source' other).nodes = (ofParse source parse).nodes := by
  obtain ⟨kept, hkept⟩ := Tree.prune_isSome parse.tree hroot
  refine ⟨kept, hkept, (laysOut_ofParse source parse kept hkept).represents, ?_⟩
  intro source' other hsame
  apply Array.toList_inj.mp
  rw [toList_nodes_ofParse, toList_nodes_ofParse, hsame]

/-- An unclosed call before another statement: the missing bracket is the last child of a last
child, with something below it. -/
theorem ofParse_represents_pruned_unclosed_call :
    let token (kind : String) (missing : Bool) (start stop : Nat) : Label :=
      ⟨kind, false, missing, none, ⟨start, stop⟩⟩
    let rule (kind : String) (start stop : Nat) : Label := ⟨kind, true, false, none, ⟨start, stop⟩⟩
    let call (more : List Tree) : Tree := .node (rule "call_expression" 0 3)
      [.node (rule "identifier" 0 1) [],
        .node (rule "arguments" 1 3) ([.node (token "(" false 1 2) []] ++ more)]
    let missing : Tree := .node (token ")" true 3 3) [.node (token ")" false 3 3) []]
    let parse (more : List Tree) : Parse :=
      ⟨.node (rule "program" 0 5) [call more, .node (rule "expression_statement" 4 5) []], true⟩
    (parse [missing]).tree.label.missing = false ∧
      (parse []).tree.prune = (parse [missing]).tree.prune ∧
      (∃ kept, (parse [missing]).tree.prune = some kept ∧
        (ofParse "f(a x" (parse [missing])).Represents kept) ∧
      (ofParse "f(a x" (parse [])).nodes = (ofParse "f(a x" (parse [missing])).nodes := by
  intro token rule call missing parse
  have hsame : (parse []).tree.prune = (parse [missing]).tree.prune := rfl
  obtain ⟨kept, hkept, hrepresents, hother⟩ :=
    ofParse_represents_pruned "f(a x" (parse [missing]) rfl
  exact ⟨rfl, hsame, ⟨kept, hkept, hrepresents⟩, hother "f(a x" (parse []) hsame⟩

end Rubric.Submission
