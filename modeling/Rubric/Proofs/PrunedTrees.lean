import Rubric.Proofs.TreeAddresses

/-!
What pruning leaves of a tree. A node survives when neither it nor a node above it is missing. It
keeps its label, and its children are those that survive, in their order. Every subtree of a
pruned tree is what pruning leaves of a subtree, so what is known of a tree's labels everywhere
carries over.
-/
namespace Rubric.Grammar.Tree

theorem pruneForest_eq_filterMap (forest : List Tree) :
    pruneForest forest = forest.filterMap prune := by
  induction forest with
  | nil => rfl
  | cons tree rest ih =>
    rw [pruneForest, List.filterMap_cons, ih]
    cases tree.prune <;> rfl

theorem pruneForest_cons (tree : Tree) (rest : List Tree) :
    pruneForest (tree :: rest) = tree.prune.toList ++ pruneForest rest := by
  rw [pruneForest]
  cases tree.prune <;> rfl

theorem prune_eq_some (tree kept : Tree) (h : tree.prune = some kept) :
    kept.label = tree.label ∧ kept.children = tree.children.filterMap prune := by
  obtain ⟨label, children⟩ := tree
  rw [prune] at h
  split at h
  · simp at h
  · simp only [Option.some.injEq] at h
    subst h
    exact ⟨rfl, pruneForest_eq_filterMap children⟩

theorem prune_isSome (tree : Tree) (h : tree.label.missing = false) :
    ∃ kept, tree.prune = some kept := by
  obtain ⟨label, children⟩ := tree
  simp only [Tree.label] at h
  exact ⟨node label (pruneForest children), by simp [prune, h]⟩

/-- A surviving node comes from a node of the tree. -/
theorem at?_prune (tree kept : Tree) (h : tree.prune = some kept) (address : List Nat)
    (subtree : Tree) (hat : kept.at? address = some subtree) :
    ∃ whole original, tree.at? whole = some original ∧ original.prune = some subtree := by
  induction address generalizing tree kept with
  | nil =>
    simp only [at?, Option.some.injEq] at hat
    subst hat
    exact ⟨[], tree, rfl, h⟩
  | cons k rest ih =>
    simp only [at?] at hat
    obtain ⟨child, hchild, hrest⟩ := Option.bind_eq_some_iff.mp hat
    rw [(prune_eq_some tree kept h).2] at hchild
    obtain ⟨sibling, hsibling, hprune⟩ := List.mem_filterMap.mp (List.mem_of_getElem? hchild)
    obtain ⟨m, hm⟩ := List.getElem?_of_mem hsibling
    obtain ⟨whole, original, hwhole, horiginal⟩ := ih sibling child hprune hrest
    exact ⟨m :: whole, original, by simp [at?, hm, hwhole], horiginal⟩

/-- A property that pruning keeps at every node holds everywhere in the pruned tree. -/
theorem Everywhere.prune {P Q : Tree → Prop} {tree kept : Tree} (h : tree.Everywhere P)
    (hkept : tree.prune = some kept)
    (hkeep : ∀ before after : Tree, before.prune = some after → P before → Q after) :
    kept.Everywhere Q := by
  intro address subtree hat
  obtain ⟨whole, original, hwhole, horiginal⟩ := at?_prune tree kept hkept address subtree hat
  exact hkeep original subtree horiginal (h whole original hwhole)

end Rubric.Grammar.Tree
