import Rubric.Proofs.Descendants
import Rubric.Proofs.PlacedNodes

/-!
The nodes of a parser's tree that are there. A missing node counts for nothing, and neither does
what stands below it. A visit goes through the others, each before those below it, and collects
what each contributes; it collects from the nodes that are reached without passing a missing one,
wherever they are. What is read off labels alone is read off a pruned tree as well, so going
through the nodes of a submission in the order of their indices is visiting the parser's tree.
-/
namespace Rubric

open Grammar

namespace Grammar

def Label.category (label : Label) : NodeKind := NodeKind.ofGrammar label.kind label.named

/-- The text that a node covers, empty when its span is no range of the source. -/
def Label.text (source : String) (label : Label) : String :=
  (Text.slice? source label.span.start label.span.stop).getD ""

namespace Tree

variable {β : Type}

def presentLabels (tree : Tree) : List Label :=
  (tree.children.map label).filter fun label => !label.missing

def filling? (tree : Tree) (field : String) : Option Label :=
  tree.presentLabels.find? fun label => label.field == some field

mutual

/-- What a node and those below it contribute, each before those below it and without the missing
ones. A contribution may depend on the node above. -/
def visit (own : Option Tree → Tree → List β) : Option Tree → Tree → List β
  | above, node label children =>
      own above (node label children) ++ visitForest own (some (node label children)) children

def visitForest (own : Option Tree → Tree → List β) : Option Tree → List Tree → List β
  | _, [] => []
  | above, tree :: rest =>
      (if tree.label.missing then [] else visit own above tree) ++ visitForest own above rest

end

inductive Reaches (tree : Tree) : Option Tree → Tree → Prop where
  | root : Reaches tree none tree
  | child {above : Option Tree} {node child : Tree} (h : Reaches tree above node)
      (mem : child ∈ node.children) (present : child.label.missing = false) :
      Reaches tree (some node) child

/-! What a visit collects -/

theorem visit_eq (own : Option Tree → Tree → List β) (above : Option Tree) (tree : Tree) :
    visit own above tree = own above tree ++ visitForest own (some tree) tree.children := by
  cases tree with
  | node label children => rw [visit, Tree.children]

theorem visitForest_eq_flatMap (own : Option Tree → Tree → List β) (above : Option Tree)
    (forest : List Tree) :
    visitForest own above forest =
      (forest.filter fun tree => !tree.label.missing).flatMap (visit own above) := by
  induction forest with
  | nil => rfl
  | cons tree rest ih =>
    rw [visitForest, ih]
    cases hmissing : tree.label.missing <;> simp [hmissing]

/-- A child that is there is visited with its parent. -/
theorem visit_child_subset (own : Option Tree → Tree → List β) (above : Option Tree)
    (tree child : Tree) (hchild : child ∈ tree.children)
    (hpresent : child.label.missing = false) :
    visit own (some tree) child ⊆ visit own above tree := by
  intro item hitem
  rw [visit_eq, visitForest_eq_flatMap, List.mem_append, List.mem_flatMap]
  exact Or.inr ⟨child, by simp [hchild, hpresent], hitem⟩

theorem Reaches.visit_subset {tree node : Tree} {above : Option Tree}
    (h : tree.Reaches above node) (own : Option Tree → Tree → List β) :
    visit own above node ⊆ visit own none tree := by
  induction h with
  | root => exact List.Subset.refl _
  | child _ hchild hpresent ih =>
    exact List.Subset.trans (visit_child_subset own _ _ _ hchild hpresent) ih

mutual

theorem exists_reaches_of_mem_visit (own : Option Tree → Tree → List β) (top : Tree) (item : β)
    (above : Option Tree) (tree : Tree) (h : top.Reaches above tree)
    (hitem : item ∈ visit own above tree) :
    ∃ above node, top.Reaches above node ∧ item ∈ own above node := by
  cases tree with
  | node label children =>
    rw [visit, List.mem_append] at hitem
    rcases hitem with hown | hbelow
    · exact ⟨above, _, h, hown⟩
    · exact exists_reaches_of_mem_visitForest own top item above (node label children) h children
        (List.Subset.refl _) hbelow

theorem exists_reaches_of_mem_visitForest (own : Option Tree → Tree → List β) (top : Tree)
    (item : β) (above : Option Tree) (parent : Tree) (h : top.Reaches above parent)
    (forest : List Tree) (hforest : forest ⊆ parent.children)
    (hitem : item ∈ visitForest own (some parent) forest) :
    ∃ above node, top.Reaches above node ∧ item ∈ own above node := by
  cases forest with
  | nil => simp [visitForest] at hitem
  | cons tree rest =>
    rw [visitForest, List.mem_append] at hitem
    rcases hitem with hfirst | hrest
    · split at hfirst
      · simp at hfirst
      · next hpresent =>
        exact exists_reaches_of_mem_visit own top item (some parent) tree
          (h.child (hforest List.mem_cons_self) (Bool.eq_false_iff.mpr hpresent)) hfirst
    · exact exists_reaches_of_mem_visitForest own top item above parent h rest
        (fun other hother => hforest (List.mem_cons_of_mem tree hother)) hrest

end

/-- A visit collects what the nodes contribute that are reached, at whatever depth, and no more. -/
theorem mem_visit_iff (own : Option Tree → Tree → List β) (tree : Tree) (item : β) :
    item ∈ visit own none tree ↔ ∃ above node, tree.Reaches above node ∧ item ∈ own above node := by
  constructor
  · exact exists_reaches_of_mem_visit own tree item none tree .root
  · rintro ⟨above, node, hreaches, hitem⟩
    apply hreaches.visit_subset own
    rw [visit_eq]
    exact List.mem_append_left _ hitem

/-! Visits of pruned trees -/

/-- What a node contributes is read off its label, the labels of its children that are there and
the label of the node above. -/
def ReadsLabels (own : Option Tree → Tree → List β) : Prop :=
  ∀ above above' tree tree', above.map label = above'.map label → tree.label = tree'.label →
    tree.presentLabels = tree'.presentLabels → own above tree = own above' tree'

theorem prune_eq_none_iff (tree : Tree) : tree.prune = none ↔ tree.label.missing = true := by
  cases tree with
  | node label children => simp [prune, Tree.label]

theorem missing_of_prune_eq_some (tree kept : Tree) (h : tree.prune = some kept) :
    tree.label.missing = false := by
  rw [← Bool.not_eq_true, ← prune_eq_none_iff, h]
  exact Option.some_ne_none kept

theorem map_label_filterMap_prune (forest : List Tree) :
    (forest.filterMap prune).map label =
      (forest.map label).filter fun label => !label.missing := by
  induction forest with
  | nil => rfl
  | cons tree rest ih =>
    rw [List.filterMap_cons, List.map_cons, List.filter_cons]
    cases hprune : tree.prune with
    | none =>
      have hmissing := (prune_eq_none_iff tree).mp hprune
      simp [hmissing, ih]
    | some kept =>
      have hlabel := (prune_eq_some tree kept hprune).1
      have hpresent := missing_of_prune_eq_some tree kept hprune
      simp [hpresent, hlabel, ih]

/-- All that is left of the children is there. -/
theorem map_label_children_prune (tree kept : Tree) (h : tree.prune = some kept) :
    kept.children.map label = tree.presentLabels := by
  rw [(prune_eq_some tree kept h).2, map_label_filterMap_prune, presentLabels]

theorem presentLabels_prune (tree kept : Tree) (h : tree.prune = some kept) :
    kept.presentLabels = tree.presentLabels := by
  rw [presentLabels, map_label_children_prune tree kept h, presentLabels, List.filter_filter]
  simp

mutual

/-- Collecting from all nodes that pruning leaves is visiting the tree. -/
theorem gather_prune (own : Option Tree → Tree → List β) (hown : ReadsLabels own)
    (above above' : Option Tree) (habove : above'.map label = above.map label)
    (tree kept : Tree) (h : tree.prune = some kept) :
    gather own above' kept = visit own above tree := by
  cases tree with
  | node label children =>
    have hlabels := presentLabels_prune _ kept h
    obtain ⟨hlabel, -⟩ := prune_eq_some _ kept h
    have hkept : kept = node label (pruneForest children) := by
      rw [prune] at h
      split at h
      · simp at h
      · exact (Option.some.inj h).symm
    subst hkept
    rw [gather, visit, hown above' above _ _ habove hlabel hlabels,
      gatherForest_prune own hown (some (node label children))
        (some (node label (pruneForest children))) rfl children]

theorem gatherForest_prune (own : Option Tree → Tree → List β) (hown : ReadsLabels own)
    (above above' : Option Tree) (habove : above'.map label = above.map label)
    (forest : List Tree) :
    gatherForest own above' (pruneForest forest) = visitForest own above forest := by
  cases forest with
  | nil => rfl
  | cons tree rest =>
    have hrest := gatherForest_prune own hown above above' habove rest
    rw [visitForest, ← hrest, pruneForest]
    cases hprune : tree.prune with
    | none =>
      rw [if_pos ((prune_eq_none_iff tree).mp hprune)]
      rfl
    | some kept =>
      rw [missing_of_prune_eq_some tree kept hprune, if_neg Bool.false_ne_true, gatherForest,
        gather_prune own hown above above' habove tree kept hprune]

end

end Tree

end Grammar

namespace Submission

/-- A submission lays out a tree in which nothing is missing. -/
structure Shows (submission : Submission) (tree : Tree) : Prop where
  laysOut : submission.LaysOut tree
  present : tree.Everywhere fun subtree => subtree.children.map Tree.label = subtree.presentLabels

theorem shows_ofParse (source : String) (parse : Parse) (kept : Tree)
    (h : parse.tree.prune = some kept) : (ofParse source parse).Shows kept where
  laysOut := laysOut_ofParse source parse kept h
  present := by
    intro address subtree hat
    obtain ⟨-, original, -, hprune⟩ := Tree.at?_prune parse.tree kept h address subtree hat
    rw [Tree.map_label_children_prune original subtree hprune,
      Tree.presentLabels_prune original subtree hprune]

namespace Shows

variable {submission : Submission} {tree : Tree}

theorem kind_at (h : submission.Shows tree) (address : List Nat) (subtree : Tree)
    (hat : tree.at? address = some subtree) :
    submission.kind (tree.position address) = subtree.label.category :=
  (h.laysOut.node_at address subtree hat).1

theorem text_at (h : submission.Shows tree) (address : List Nat) (subtree : Tree)
    (hat : tree.at? address = some subtree) :
    submission.text (tree.position address) = subtree.label.text submission.source := by
  obtain ⟨-, -, hspan, -⟩ := h.laysOut.node_at address subtree hat
  rw [text, hspan, slice, Label.text]

/-- What can be read off the label of every node can be read off the labels of the children. -/
theorem map_children {β : Type} (h : submission.Shows tree) (f : Nat → β) (g : Label → β)
    (hfg : ∀ address subtree, tree.at? address = some subtree →
      f (tree.position address) = g subtree.label)
    (address : List Nat) (subtree : Tree) (hat : tree.at? address = some subtree) :
    (submission.children (tree.position address)).map f = subtree.presentLabels.map g := by
  rw [← h.present address subtree hat, List.map_map]
  exact h.laysOut.map_children f (g ∘ Tree.label) hfg address subtree hat

/-- The first child that fills a field, in the submission and in the tree. -/
theorem childByField_cases (h : submission.Shows tree) (address : List Nat) (subtree : Tree)
    (hat : tree.at? address = some subtree) (field : String) :
    (submission.childByField (tree.position address) field = none ∧
        subtree.filling? field = none) ∨
      ∃ child label, submission.childByField (tree.position address) field = some child ∧
        subtree.filling? field = some label ∧ submission.kind child = label.category ∧
        submission.text child = label.text submission.source := by
  have hfilling : subtree.filling? field =
      (subtree.children.find? fun child => child.label.field == some field).map Tree.label := by
    rw [Tree.filling?, ← h.present address subtree hat, List.find?_map]
    rfl
  have hfield (address : List Nat) (subtree : Tree) (hat : tree.at? address = some subtree) :
      (submission.field (tree.position address) == some field) =
        (subtree.label.field == some field) := by
    rw [(h.laysOut.node_at address subtree hat).2.1]
  rcases h.laysOut.find?_children (fun i => submission.field i == some field)
      (fun child => child.label.field == some field) hfield address subtree hat with
    ⟨hnone, hchild⟩ | ⟨k, child, hsome, hbelow, hchild⟩
  · exact Or.inl ⟨hchild, by rw [hfilling, hnone]; rfl⟩
  · exact Or.inr ⟨_, child.label, hchild, by rw [hfilling, hsome]; rfl,
      h.kind_at _ child hbelow, h.text_at _ child hbelow⟩

/-- What can be read off the label of every node can be read off the label of the node above, there
being one for every node but the root. -/
theorem map_parent {β : Type} (h : submission.Shows tree) (f : Nat → β) (g : Label → β)
    (hfg : ∀ address subtree, tree.at? address = some subtree →
      f (tree.position address) = g subtree.label)
    (address : List Nat) (subtree : Tree) (hat : tree.at? address = some subtree) :
    (submission.parent (tree.position address)).map f =
      (tree.above? address).map fun above => g above.label := by
  rcases List.eq_nil_or_concat address with rfl | ⟨init, k, rfl⟩
  · have hroot : submission.parent (tree.position []) = none := h.laysOut.parent_root
    rw [hroot, Tree.above?, if_pos rfl]
    rfl
  · rw [List.concat_eq_append] at hat ⊢
    obtain ⟨above, habove, -⟩ := Tree.at?_concat tree subtree init k hat
    rw [h.laysOut.parent_concat init k subtree hat, Tree.above?_concat, habove, Option.map_some,
      Option.map_some, hfg init above habove]

theorem parent_at (h : submission.Shows tree) (address : List Nat) (subtree : Tree)
    (hat : tree.at? address = some subtree) :
    (submission.parent (tree.position address)).map submission.text =
      (tree.above? address).map fun above => above.label.text submission.source :=
  h.map_parent submission.text (Label.text submission.source) h.text_at address subtree hat

end Shows

/-- Going through all nodes of a submission in their order is visiting the parser's tree. -/
theorem flatMap_indices_ofParse {β : Type} (source : String) (parse : Parse)
    (hroot : parse.tree.label.missing = false) (f : Nat → List β)
    (own : Option Tree → Tree → List β) (hreads : Tree.ReadsLabels own)
    (hown : ∀ kept, (ofParse source parse).Shows kept → ∀ address subtree,
      kept.at? address = some subtree →
        f (kept.position address) = own (kept.above? address) subtree) :
    (ofParse source parse).indices.flatMap f = parse.tree.visit own none := by
  obtain ⟨kept, hkept⟩ := Tree.prune_isSome parse.tree hroot
  have hshows := shows_ofParse source parse kept hkept
  have hgather := Tree.flatMap_range'_eq_gather kept f own (hown kept hshows) [] kept rfl
  rw [← Tree.gather_prune own hreads none none rfl parse.tree kept hkept, indices,
    hshows.laysOut.size_eq, List.range_eq_range']
  exact hgather

end Submission

end Rubric
