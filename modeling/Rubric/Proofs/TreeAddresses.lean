import Mathlib.Data.List.Nodup
import Rubric.Grammar.Tree

/-!
Addresses of the nodes of a concrete tree. An address lists child positions from the root down,
so the parent of the node at `address ++ [k]` is the node at `address`, and `k` counts the
siblings before it. The addresses in pre-order are exactly those that lead to a node, each once.
The place of an address among them is computed from the sizes of the trees passed on the way.
-/
namespace Rubric.Grammar.Tree

def at? : Tree → List Nat → Option Tree
  | tree, [] => some tree
  | tree, k :: rest => tree.children[k]?.bind fun child => child.at? rest

mutual

def addresses : Tree → List (List Nat)
  | node _ children => [] :: forestAddresses 0 children

/-- The first tree of the forest is the child in position `k`. -/
def forestAddresses : Nat → List Tree → List (List Nat)
  | _, [] => []
  | k, tree :: rest => (addresses tree).map (k :: ·) ++ forestAddresses (k + 1) rest

end

def position : Tree → List Nat → Nat
  | _, [] => 0
  | tree, k :: rest =>
      1 + forestSize (tree.children.take k) +
        match tree.children[k]? with
        | some child => child.position rest
        | none => 0

def Everywhere (P : Tree → Prop) (tree : Tree) : Prop :=
  ∀ address subtree, tree.at? address = some subtree → P subtree

theorem split_child (forest : List Tree) (k : Nat) (child : Tree)
    (h : forest[k]? = some child) :
    forest = forest.take k ++ child :: forest.drop (k + 1) ∧ (forest.take k).length = k := by
  obtain ⟨hk, rfl⟩ := List.getElem?_eq_some_iff.mp h
  constructor
  · rw [← List.drop_eq_getElem_cons hk, List.take_append_drop]
  · simp only [List.length_take]
    omega

theorem at?_append (tree subtree : Tree) (left right : List Nat)
    (h : tree.at? left = some subtree) : tree.at? (left ++ right) = subtree.at? right := by
  induction left generalizing tree with
  | nil =>
    simp only [at?, Option.some.injEq] at h
    rw [h, List.nil_append]
  | cons k rest ih =>
    simp only [at?, List.cons_append] at h ⊢
    obtain ⟨child, hchild, hrest⟩ := Option.bind_eq_some_iff.mp h
    rw [hchild, Option.bind_some]
    exact ih child hrest

/-- A node below the root has a parent, and is one of its children. -/
theorem at?_concat (tree child : Tree) (address : List Nat) (k : Nat)
    (h : tree.at? (address ++ [k]) = some child) :
    ∃ parent, tree.at? address = some parent ∧ parent.children[k]? = some child := by
  induction address generalizing tree with
  | nil => exact ⟨tree, rfl, by simpa [at?] using h⟩
  | cons m rest ih =>
    simp only [at?, List.cons_append] at h ⊢
    obtain ⟨next, hnext, hrest⟩ := Option.bind_eq_some_iff.mp h
    rw [hnext, Option.bind_some]
    exact ih next hrest

theorem at?_child (tree parent child : Tree) (address : List Nat) (k : Nat)
    (h : tree.at? address = some parent) (hchild : parent.children[k]? = some child) :
    tree.at? (address ++ [k]) = some child := by
  rw [at?_append tree parent address [k] h]
  simp only [at?, hchild, Option.bind_some]

/-- Positions add up along an address. -/
theorem position_append (tree subtree : Tree) (address below : List Nat)
    (hat : tree.at? address = some subtree) :
    tree.position (address ++ below) = tree.position address + subtree.position below := by
  induction address generalizing tree with
  | nil =>
    simp only [at?, Option.some.injEq] at hat
    subst hat
    simp [position]
  | cons k rest ih =>
    simp only [at?] at hat
    obtain ⟨child, hchild, hrest⟩ := Option.bind_eq_some_iff.mp hat
    have hposition := ih child hrest
    simp only [List.cons_append, position, hchild]
    omega

/-- Stepping down to a child passes the parent and the trees of the siblings before it. -/
theorem position_concat (tree parent : Tree) (address : List Nat) (k : Nat)
    (h : tree.at? address = some parent) :
    tree.position (address ++ [k]) =
      tree.position address + 1 + forestSize (parent.children.take k) := by
  rw [position_append tree parent address [k] h]
  simp only [position]
  split <;> omega

theorem forestSize_append (left right : List Tree) :
    forestSize (left ++ right) = forestSize left + forestSize right := by
  induction left with
  | nil => simp [forestSize]
  | cons tree rest ih => simp only [List.cons_append, forestSize, ih, Nat.add_assoc]

/-- The first tree of what is left of the children, and the others. -/
theorem drop_children_eq_cons (parent child : Tree) (rest : List Tree) (k : Nat)
    (h : parent.children.drop k = child :: rest) :
    parent.children[k]? = some child ∧ parent.children.drop (k + 1) = rest ∧
      forestSize (parent.children.take (k + 1)) =
        forestSize (parent.children.take k) + child.size := by
  have hchild : parent.children[k]? = some child := by
    rw [← List.head?_drop, h, List.head?_cons]
  have hrest : parent.children.drop (k + 1) = rest := by
    rw [← List.drop_drop, h, List.drop_one, List.tail_cons]
  refine ⟨hchild, hrest, ?_⟩
  rw [List.take_add_one, hchild, Option.toList_some, forestSize_append]
  rfl

theorem forestAddresses_append (k : Nat) (left right : List Tree) :
    forestAddresses k (left ++ right) =
      forestAddresses k left ++ forestAddresses (k + left.length) right := by
  induction left generalizing k with
  | nil => simp [forestAddresses]
  | cons tree rest ih =>
    simp only [List.cons_append, forestAddresses, ih, List.append_assoc, List.length_cons]
    rw [Nat.add_right_comm k 1, Nat.add_assoc k]

mutual

theorem length_addresses (tree : Tree) : tree.addresses.length = tree.size := by
  cases tree with
  | node label children =>
    simp only [addresses, List.length_cons, size, length_forestAddresses 0 children]
    omega

theorem length_forestAddresses (k : Nat) (forest : List Tree) :
    (forestAddresses k forest).length = forestSize forest := by
  cases forest with
  | nil => rfl
  | cons tree rest =>
    simp only [forestAddresses, List.length_append, List.length_map, forestSize,
      length_addresses tree, length_forestAddresses (k + 1) rest]

end

theorem forestAddresses_split (k : Nat) (forest : List Tree) (m : Nat) (child : Tree)
    (h : forest[m]? = some child) :
    forestAddresses k forest = forestAddresses k (forest.take m) ++
      (child.addresses.map ((k + m) :: ·) ++
        forestAddresses (k + m + 1) (forest.drop (m + 1))) := by
  obtain ⟨hsplit, hlength⟩ := split_child forest m child h
  have happend := forestAddresses_append k (forest.take m) (child :: forest.drop (m + 1))
  rw [← hsplit, hlength] at happend
  simpa only [forestAddresses] using happend

/-- The addresses of a subtree, continued from its own address, are listed without a gap. -/
theorem addresses_split (tree subtree : Tree) (address : List Nat)
    (h : tree.at? address = some subtree) :
    ∃ before after, tree.addresses = before ++ subtree.addresses.map (address ++ ·) ++ after ∧
      before.length = tree.position address := by
  induction address generalizing tree with
  | nil =>
    simp only [at?, Option.some.injEq] at h
    subst h
    exact ⟨[], [], by simp, rfl⟩
  | cons k rest ih =>
    obtain ⟨label, children⟩ := tree
    simp only [at?] at h
    obtain ⟨child, hchild, hrest⟩ := Option.bind_eq_some_iff.mp h
    obtain ⟨before, after, hsplit, hlength⟩ := ih child hrest
    refine ⟨[] :: forestAddresses 0 (children.take k) ++ before.map (k :: ·),
      after.map (k :: ·) ++ forestAddresses (k + 1) (children.drop (k + 1)), ?_, ?_⟩
    · rw [addresses, forestAddresses_split 0 children k child hchild, hsplit]
      simp [Function.comp_def]
    · simp only [Tree.children] at hchild
      simp only [List.length_append, List.length_cons, List.length_map, length_forestAddresses,
        hlength, position, Tree.children, hchild]
      omega

theorem getElem?_addresses_position (tree subtree : Tree) (address : List Nat)
    (h : tree.at? address = some subtree) :
    tree.addresses[tree.position address]? = some address := by
  obtain ⟨before, after, hsplit, hlength⟩ := addresses_split tree subtree address h
  obtain ⟨label, children⟩ := subtree
  rw [hsplit, ← hlength, List.append_assoc, List.getElem?_append_right (Nat.le_refl _)]
  simp [addresses]

mutual

theorem at?_of_mem_addresses (tree : Tree) (address : List Nat) (h : address ∈ tree.addresses) :
    ∃ subtree, tree.at? address = some subtree := by
  cases tree with
  | node label children =>
    simp only [addresses, List.mem_cons] at h
    rcases h with rfl | h
    · exact ⟨node label children, rfl⟩
    · obtain ⟨m, rest, child, rfl, hchild, hrest⟩ := mem_forestAddresses 0 children address h
      obtain ⟨subtree, hsubtree⟩ := hrest
      exact ⟨subtree, by simp [at?, Tree.children, hchild, hsubtree]⟩

theorem mem_forestAddresses (k : Nat) (forest : List Tree) (address : List Nat)
    (h : address ∈ forestAddresses k forest) :
    ∃ m rest child, address = (k + m) :: rest ∧ forest[m]? = some child ∧
      ∃ subtree, child.at? rest = some subtree := by
  cases forest with
  | nil => simp [forestAddresses] at h
  | cons tree others =>
    simp only [forestAddresses, List.mem_append, List.mem_map] at h
    rcases h with ⟨rest, hrest, rfl⟩ | h
    · exact ⟨0, rest, tree, rfl, rfl, at?_of_mem_addresses tree rest hrest⟩
    · obtain ⟨m, rest, child, rfl, hchild, hsubtree⟩ :=
        mem_forestAddresses (k + 1) others address h
      exact ⟨m + 1, rest, child, by rw [Nat.add_right_comm, Nat.add_assoc], hchild, hsubtree⟩

end

mutual

theorem nodup_addresses (tree : Tree) : tree.addresses.Nodup := by
  cases tree with
  | node label children =>
    rw [addresses, List.nodup_cons]
    refine ⟨?_, nodup_forestAddresses 0 children⟩
    intro hroot
    obtain ⟨m, rest, child, heq, -⟩ := mem_forestAddresses 0 children [] hroot
    exact List.cons_ne_nil _ _ heq.symm

theorem nodup_forestAddresses (k : Nat) (forest : List Tree) :
    (forestAddresses k forest).Nodup := by
  cases forest with
  | nil => exact List.nodup_nil
  | cons tree rest =>
    rw [forestAddresses]
    refine List.Nodup.append ?_ (nodup_forestAddresses (k + 1) rest) ?_
    · exact (nodup_addresses tree).map (List.cons_injective)
    · intro address hleft hright
      obtain ⟨below, -, rfl⟩ := List.mem_map.mp hleft
      obtain ⟨m, others, child, heq, -⟩ := mem_forestAddresses (k + 1) rest _ hright
      have hk := (List.cons.inj heq).1
      omega

end

/-- Counting the nodes before an address inverts the listing. -/
theorem getElem?_addresses (tree : Tree) (i : Nat) (address : List Nat) :
    tree.addresses[i]? = some address ↔
      (∃ subtree, tree.at? address = some subtree) ∧ tree.position address = i := by
  constructor
  · intro h
    obtain ⟨hi, heq⟩ := List.getElem?_eq_some_iff.mp h
    obtain ⟨subtree, hsubtree⟩ := at?_of_mem_addresses tree address (heq ▸ List.getElem_mem hi)
    refine ⟨⟨subtree, hsubtree⟩, ?_⟩
    have hposition := getElem?_addresses_position tree subtree address hsubtree
    obtain ⟨hlt, hget⟩ := List.getElem?_eq_some_iff.mp hposition
    exact (nodup_addresses tree).getElem_inj_iff.mp (hget.trans heq.symm)
  · rintro ⟨⟨subtree, hsubtree⟩, rfl⟩
    exact getElem?_addresses_position tree subtree address hsubtree

theorem position_lt_size (tree subtree : Tree) (address : List Nat)
    (hat : tree.at? address = some subtree) : tree.position address < tree.size := by
  have hget := getElem?_addresses_position tree subtree address hat
  rw [← length_addresses]
  exact (List.getElem?_eq_some_iff.mp hget).1

theorem exists_position_eq (tree : Tree) (i : Nat) (hi : i < tree.size) :
    ∃ address subtree, tree.at? address = some subtree ∧ tree.position address = i := by
  rw [← length_addresses] at hi
  obtain ⟨⟨subtree, hsubtree⟩, hposition⟩ :=
    (getElem?_addresses tree i _).mp (List.getElem?_eq_getElem hi)
  exact ⟨_, subtree, hsubtree, hposition⟩

/-- A subtree ends before the tree does. -/
theorem position_add_size_le (tree subtree : Tree) (address : List Nat)
    (hat : tree.at? address = some subtree) :
    tree.position address + subtree.size ≤ tree.size := by
  obtain ⟨before, after, hsplit, hlength⟩ := addresses_split tree subtree address hat
  have hlengths := congrArg List.length hsplit
  simp only [List.length_append, List.length_map, length_addresses] at hlengths
  omega

theorem Everywhere.root {P : Tree → Prop} {tree : Tree} (h : tree.Everywhere P) : P tree :=
  h [] tree rfl

theorem Everywhere.of_mem_children {P : Tree → Prop} {tree : Tree} (h : tree.Everywhere P)
    (child : Tree) (hchild : child ∈ tree.children) : child.Everywhere P := by
  obtain ⟨k, hk⟩ := List.getElem?_of_mem hchild
  intro address subtree hat
  apply h (k :: address) subtree
  simp only [at?, hk, Option.bind_some, hat]

/-- Only the addresses that are listed have to be looked at. -/
theorem everywhere_iff (P : Tree → Prop) (tree : Tree) :
    tree.Everywhere P ↔ ∀ address ∈ tree.addresses, ∀ subtree ∈ tree.at? address, P subtree := by
  constructor
  · intro h address _ subtree hat
    exact h address subtree hat
  · intro h address subtree hat
    have hget := getElem?_addresses_position tree subtree address hat
    exact h address (List.mem_of_getElem? hget) subtree hat

instance (P : Tree → Prop) [DecidablePred P] (tree : Tree) : Decidable (tree.Everywhere P) :=
  decidable_of_iff _ (everywhere_iff P tree).symm

mutual

/-- The addresses lead to the labels of the pre-order, one by one. -/
theorem labels_addresses (tree : Tree) :
    tree.addresses.map (fun address => (tree.at? address).map label) =
      tree.preorder.map some := by
  cases tree with
  | node label children =>
    rw [addresses, preorder, List.map_cons, List.map_cons,
      labels_forestAddresses (node label children) 0 children rfl]
    rfl

theorem labels_forestAddresses (parent : Tree) (k : Nat) (forest : List Tree)
    (h : parent.children.drop k = forest) :
    (forestAddresses k forest).map (fun address => (parent.at? address).map label) =
      (forestPreorder forest).map some := by
  cases forest with
  | nil => rfl
  | cons tree rest =>
    obtain ⟨hchild, hrest, -⟩ := drop_children_eq_cons parent tree rest k h
    rw [forestAddresses, forestPreorder, List.map_append, List.map_append,
      labels_forestAddresses parent (k + 1) rest hrest, ← labels_addresses tree, List.map_map]
    simp only [Function.comp_def, at?, hchild, Option.bind_some]

end

theorem getElem?_preorder_position (tree subtree : Tree) (address : List Nat)
    (h : tree.at? address = some subtree) :
    tree.preorder[tree.position address]? = some subtree.label := by
  have hlabels := congrArg (·[tree.position address]?) (labels_addresses tree)
  simp only [List.getElem?_map, getElem?_addresses_position tree subtree address h,
    Option.map_some, h] at hlabels
  cases hget : tree.preorder[tree.position address]? with
  | none => simp [hget] at hlabels
  | some found => simpa [hget, eq_comm] using hlabels

end Rubric.Grammar.Tree
