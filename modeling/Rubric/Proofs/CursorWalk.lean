import Rubric.Proofs.FlatNodes
import Rubric.Proofs.PrunedTrees

/-!
The cursor's walk over a tree with its stack of open ancestors. Planting a tree below the
innermost ancestor is the walk's effect on one subtree, by recursion on the tree. The walk from
any cursor plants the focus and then, level by level, the siblings still to come, so the stack is
dropped in step with the levels left. Planting appends the layout of the pruned tree and tells
the ancestor its new children, which gives the walk from the root as one equation.
-/
namespace Rubric.Submission

open Grammar

mutual

/-- Adds a tree below the innermost ancestor, unless it is missing. -/
def plant : List Nat → Array Node → Tree → Array Node
  | ancestors, nodes, .node label children =>
      if label.missing then nodes
      else plantForest (nodes.size :: ancestors) (append nodes ancestors label) children

def plantForest : List Nat → Array Node → List Tree → Array Node
  | _, nodes, [] => nodes
  | ancestors, nodes, tree :: rest => plantForest ancestors (plant ancestors nodes tree) rest

end

/-- Adds the siblings still to come, the innermost level first. Leaving a level closes an
ancestor. -/
def plantAbove : List (Tree × List Tree) → List Nat → Array Node → Array Node
  | [], _, nodes => nodes
  | (_, siblings) :: above, ancestors, nodes =>
      plantAbove above ancestors.tail (plantForest ancestors nodes siblings)

/-- The next sibling found above is the next tree to be planted, whatever the number of levels
left to reach it. -/
theorem plantAbove_of_nextAbove (above : List (Tree × List Tree)) (ancestors : List Nat)
    (nodes : Array Node) (step : Cursor × Nat) (h : Cursor.nextAbove above = some step) :
    plantAbove above ancestors nodes =
      plantAbove step.1.above (ancestors.drop step.2)
        (plant (ancestors.drop step.2) nodes step.1.focus) := by
  induction above generalizing ancestors step with
  | nil => simp [Cursor.nextAbove] at h
  | cons level above ih =>
    obtain ⟨parent, siblings⟩ := level
    cases siblings with
    | nil =>
      simp only [Cursor.nextAbove] at h
      obtain ⟨inner, hinner, rfl⟩ := Option.map_eq_some_iff.mp h
      rw [plantAbove, plantForest, ih ancestors.tail inner hinner, List.drop_tail]
    | cons next rest =>
      simp only [Cursor.nextAbove, Option.some.injEq] at h
      subst h
      simp only [plantAbove, plantForest, List.drop_zero]

theorem plantAbove_of_nextAbove_eq_none (above : List (Tree × List Tree)) (ancestors : List Nat)
    (nodes : Array Node) (h : Cursor.nextAbove above = none) :
    plantAbove above ancestors nodes = nodes := by
  induction above generalizing ancestors with
  | nil => rfl
  | cons level above ih =>
    obtain ⟨parent, siblings⟩ := level
    cases siblings with
    | nil =>
      simp only [Cursor.nextAbove, Option.map_eq_none_iff] at h
      rw [plantAbove, plantForest, ih ancestors.tail h]
    | cons next rest => simp [Cursor.nextAbove] at h

theorem plant_of_missing (ancestors : List Nat) (nodes : Array Node) (tree : Tree)
    (h : tree.label.missing = true) : plant ancestors nodes tree = nodes := by
  obtain ⟨label, children⟩ := tree
  simp only [Tree.label] at h
  rw [plant, if_pos h]

theorem plant_of_present (ancestors : List Nat) (nodes : Array Node) (tree : Tree)
    (h : ¬ tree.label.missing = true) :
    plant ancestors nodes tree =
      plantForest (nodes.size :: ancestors) (append nodes ancestors tree.label)
        tree.children := by
  obtain ⟨label, children⟩ := tree
  simp only [Tree.label] at h
  rw [plant, if_neg h]
  rfl

theorem children_of_firstChild (cursor child : Cursor) (h : cursor.firstChild? = some child) :
    ∃ rest, cursor.focus.children = child.focus :: rest ∧
      child.above = (cursor.focus, rest) :: cursor.above := by
  unfold Cursor.firstChild? at h
  split at h
  · simp at h
  · next first rest hchildren =>
    cases h
    exact ⟨rest, hchildren, rfl⟩

theorem children_of_firstChild_eq_none (cursor : Cursor) (h : cursor.firstChild? = none) :
    cursor.focus.children = [] := by
  unfold Cursor.firstChild? at h
  split at h
  · assumption
  · simp at h

/-- The walk from a cursor plants the focus and everything after it. -/
theorem walk_eq_plant (cursor : Cursor) (ancestors : List Nat) (nodes : Array Node) :
    walk cursor ancestors nodes =
      plantAbove cursor.above ancestors (plant ancestors nodes cursor.focus) := by
  fun_induction walk cursor ancestors nodes with
  | case1 cursor ancestors nodes hmissing hskip =>
    rw [plant_of_missing ancestors nodes cursor.focus hmissing]
    exact (plantAbove_of_nextAbove_eq_none cursor.above ancestors nodes hskip).symm
  | case2 cursor ancestors nodes hmissing step hskip ih =>
    rw [ih, plant_of_missing ancestors nodes cursor.focus hmissing]
    exact (plantAbove_of_nextAbove cursor.above ancestors nodes step hskip).symm
  | case3 cursor ancestors nodes hpresent grown child hchild ih =>
    obtain ⟨rest, hchildren, habove⟩ := children_of_firstChild cursor child hchild
    rw [ih, plant_of_present ancestors nodes cursor.focus hpresent, hchildren, habove]
    simp only [plantAbove, plantForest, List.tail_cons]
    rfl
  | case4 cursor ancestors nodes hpresent grown hchild hskip =>
    have hchildren := children_of_firstChild_eq_none cursor hchild
    rw [plant_of_present ancestors nodes cursor.focus hpresent, hchildren, plantForest]
    exact (plantAbove_of_nextAbove_eq_none cursor.above ancestors grown hskip).symm
  | case5 cursor ancestors nodes hpresent grown hchild step hskip ih =>
    have hchildren := children_of_firstChild_eq_none cursor hchild
    rw [ih, plant_of_present ancestors nodes cursor.focus hpresent, hchildren, plantForest]
    exact (plantAbove_of_nextAbove cursor.above ancestors grown step hskip).symm

def adoptAll : Option Nat → List Nat → List Node → List Node
  | none, _, nodes => nodes
  | some parent, children, nodes =>
      nodes.modify parent fun node => { node with children := node.children ++ children }

theorem length_adoptAll (parent : Option Nat) (children : List Nat) (nodes : List Node) :
    (adoptAll parent children nodes).length = nodes.length := by
  cases parent <;> simp [adoptAll]

theorem adoptAll_nil (parent : Option Nat) (nodes : List Node) :
    adoptAll parent [] nodes = nodes := by
  cases parent with
  | none => rfl
  | some parent =>
    simp only [adoptAll, List.append_nil]
    exact List.modify_id parent nodes

theorem adoptAll_adoptAll (parent : Option Nat) (left right : List Nat) (nodes : List Node) :
    adoptAll parent right (adoptAll parent left nodes) =
      adoptAll parent (left ++ right) nodes := by
  cases parent with
  | none => rfl
  | some parent =>
    simp only [adoptAll, List.modify_modify_eq, Function.comp_def, List.append_assoc]

/-- Only nodes that are already there are told. -/
theorem adoptAll_append (parent : Option Nat) (children : List Nat) (nodes more : List Node)
    (h : ∀ i ∈ parent, i < nodes.length) :
    adoptAll parent children (nodes ++ more) = adoptAll parent children nodes ++ more := by
  cases parent with
  | none => rfl
  | some parent =>
    have hlt := h parent rfl
    simp only [adoptAll]
    rw [List.modify_eq_take_cons_drop hlt,
      List.modify_eq_take_cons_drop (by simp only [List.length_append]; omega)]
    simp [List.getElem_append_left hlt, List.take_append_of_le_length (Nat.le_of_lt hlt),
      List.drop_append_of_le_length (Nat.succ_le_of_lt hlt)]

theorem adoptAll_last (label : Label) (parent : Option Nat) (children : List Nat)
    (nodes : List Node) :
    adoptAll (some nodes.length) children (nodes ++ [Node.ofLabel label parent []]) =
      nodes ++ [Node.ofLabel label parent children] := by
  have hlt : nodes.length < (nodes ++ [Node.ofLabel label parent []]).length := by simp
  rw [adoptAll, List.modify_eq_take_cons_drop hlt]
  simp [Node.ofLabel]

theorem toList_append (nodes : Array Node) (ancestors : List Nat) (label : Label) :
    (append nodes ancestors label).toList =
      adoptAll ancestors.head? [nodes.size] nodes.toList ++
        [Node.ofLabel label ancestors.head? []] := by
  cases ancestors with
  | nil => simp [append, adoptAll, Node.ofLabel]
  | cons parent rest =>
    simp only [append, List.head?_cons, adoptAll, Array.toList_push, Array.toList_modify]
    rfl

mutual

/-- Planting a tree appends the layout of what is left of it after pruning. -/
theorem toList_plant (ancestors : List Nat) (nodes : Array Node) (tree : Tree) :
    (plant ancestors nodes tree).toList =
      adoptAll ancestors.head? (rootIndices nodes.size tree.prune.toList) nodes.toList ++
        flattenForest nodes.size ancestors.head? tree.prune.toList := by
  cases tree with
  | node label children =>
    by_cases hmissing : label.missing = true
    · simp [plant, Tree.prune, hmissing, rootIndices, flattenForest, adoptAll_nil]
    · have hgrown : (append nodes ancestors label).size = nodes.size + 1 := by
        have hlength := congrArg List.length (toList_append nodes ancestors label)
        simpa only [Array.length_toList, List.length_append, length_adoptAll,
          List.length_singleton] using hlength
      have hforest := toList_plantForest (nodes.size :: ancestors)
        (append nodes ancestors label) children
        (by simp only [List.head?_cons, Option.mem_some_iff]; omega)
      rw [plant, if_neg hmissing, hforest, hgrown, toList_append]
      have hlast := adoptAll_last label ancestors.head?
        (rootIndices (nodes.size + 1) (Tree.pruneForest children))
        (adoptAll ancestors.head? [nodes.size] nodes.toList)
      rw [length_adoptAll, Array.length_toList] at hlast
      rw [List.head?_cons, hlast]
      simp [Tree.prune, hmissing, rootIndices, flattenForest, flatten]

theorem toList_plantForest (ancestors : List Nat) (nodes : Array Node) (forest : List Tree)
    (h : ∀ i ∈ ancestors.head?, i < nodes.size) :
    (plantForest ancestors nodes forest).toList =
      adoptAll ancestors.head? (rootIndices nodes.size (Tree.pruneForest forest)) nodes.toList ++
        flattenForest nodes.size ancestors.head? (Tree.pruneForest forest) := by
  cases forest with
  | nil => simp [plantForest, Tree.pruneForest, rootIndices, flattenForest, adoptAll_nil]
  | cons tree rest =>
    have htree := toList_plant ancestors nodes tree
    have hsize : (plant ancestors nodes tree).size =
        nodes.size + Tree.forestSize tree.prune.toList := by
      have hlength := congrArg List.length htree
      simpa only [Array.length_toList, List.length_append, length_adoptAll,
        length_flattenForest] using hlength
    have hrest := toList_plantForest ancestors (plant ancestors nodes tree) rest
      (fun i hi => by have hlt := h i hi; omega)
    rw [plantForest, hrest, hsize, htree, Tree.pruneForest_cons, rootIndices_append,
      flattenForest_append, adoptAll_append _ _ _ _ ?_, adoptAll_adoptAll, List.append_assoc]
    intro i hi
    rw [length_adoptAll]
    exact h i hi

end

/-- The nodes of a submission are the layout of its pruned tree. -/
theorem toList_nodes_ofParse (source : String) (parse : Parse) :
    (ofParse source parse).nodes.toList = flattenForest 0 none parse.tree.prune.toList := by
  change (walk (Cursor.start parse.tree) [] #[]).toList = _
  rw [walk_eq_plant]
  change (plant [] #[] parse.tree).toList = _
  rw [toList_plant]
  simp [adoptAll]

end Rubric.Submission
