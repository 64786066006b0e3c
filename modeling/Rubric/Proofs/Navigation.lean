import Rubric.Proofs.Descendants

/-!
Walks down and up from a node. The walk down goes on until its stack is empty, the walk up until a
node has no parent. Both are stated here without a bound on their steps, so a walk that is stated
is one that ends. In a submission all of them end, within as many steps as there are nodes. The
walk down passes an interval of indices, the walk up leads to the root, and a node is met on the
way down from another exactly when the other is met on the way up from it.
-/
namespace Rubric.Submission

open Grammar

/-- A stack of nodes is worked off. The top is visited and makes room for its children, and the
walk ends with an empty stack. -/
inductive WalksDown (submission : Submission) : List Nat → List Nat → Prop
  | done : WalksDown submission [] []
  | visit (i : Nat) (stack visited : List Nat)
      (h : WalksDown submission (submission.children i ++ stack) visited) :
      WalksDown submission (i :: stack) (i :: visited)

inductive WalksUp (submission : Submission) : Nat → List Nat → Prop
  | top (i : Nat) (h : submission.parent i = none) : WalksUp submission i []
  | step (i parent : Nat) (above : List Nat) (hparent : submission.parent i = some parent)
      (h : WalksUp submission parent above) : WalksUp submission i (parent :: above)

variable {submission : Submission}

/-! Walks and their fuel -/

theorem WalksDown.visit_eq {stack visited : List Nat} (h : submission.WalksDown stack visited)
    (fuel : Nat) (hfuel : visited.length ≤ fuel) : submission.visit fuel stack = visited := by
  induction h generalizing fuel with
  | done => exact visit_nil submission fuel
  | visit i stack visited _ ih =>
    rw [List.length_cons] at hfuel
    obtain ⟨less, rfl⟩ := Nat.exists_eq_add_one.mpr (Nat.zero_lt_of_lt hfuel)
    rw [Submission.visit, ih less (by omega)]

variable (submission) in
/-- A walk that leaves some of its fuel has ended by itself. -/
theorem walksDown_visit (fuel : Nat) (stack : List Nat)
    (h : (submission.visit fuel stack).length < fuel) :
    submission.WalksDown stack (submission.visit fuel stack) := by
  induction fuel generalizing stack with
  | zero => omega
  | succ fuel ih =>
    cases stack with
    | nil => exact .done
    | cons i stack =>
      rw [visit, List.length_cons] at h
      rw [visit]
      apply WalksDown.visit
      apply ih
      omega

theorem WalksUp.climb_eq {i : Nat} {above : List Nat} (h : submission.WalksUp i above)
    (fuel : Nat) (hfuel : above.length ≤ fuel) : submission.climb fuel i = above := by
  induction h generalizing fuel with
  | top i hparent => cases fuel <;> simp [climb, hparent]
  | step i parent above hparent _ ih =>
    rw [List.length_cons] at hfuel
    obtain ⟨less, rfl⟩ := Nat.exists_eq_add_one.mpr (Nat.zero_lt_of_lt hfuel)
    simp only [climb, hparent]
    rw [ih less (by omega)]

/-! The way up, where parents come before their children -/

theorem WalksUp.pairwise (hlt : ∀ i j, submission.parent j = some i → i < j) {i : Nat}
    {above : List Nat} (h : submission.WalksUp i above) : (i :: above).Pairwise (· > ·) := by
  induction h with
  | top i _ => exact List.pairwise_singleton _ i
  | step i parent above hparent _ ih =>
    have hparentLt := hlt parent i hparent
    refine List.pairwise_cons.mpr ⟨?_, ih⟩
    intro j hj
    rcases List.mem_cons.mp hj with heq | hmem
    · rw [heq]
      exact hparentLt
    · have hjLt := (List.pairwise_cons.mp ih).1 j hmem
      omega

theorem WalksUp.length_le (hlt : ∀ i j, submission.parent j = some i → i < j) {i : Nat}
    {above : List Nat} (h : submission.WalksUp i above) : above.length ≤ i := by
  induction h with
  | top i _ => exact Nat.zero_le i
  | step i parent above hparent _ ih =>
    have hparentLt := hlt parent i hparent
    rw [List.length_cons]
    omega

theorem exists_walksUp (hlt : ∀ i j, submission.parent j = some i → i < j) (i : Nat) :
    ∃ above, submission.WalksUp i above := by
  induction i using Nat.strong_induction_on with
  | h i ih =>
    cases hparent : submission.parent i with
    | none => exact ⟨[], .top i hparent⟩
    | some parent =>
      obtain ⟨above, habove⟩ := ih parent (hlt parent i hparent)
      exact ⟨parent :: above, .step i parent above hparent habove⟩

namespace LaysOut

variable {tree : Tree}

theorem parent_lt (h : submission.LaysOut tree) (i j : Nat)
    (hparent : submission.parent j = some i) : i < j := by
  have hmem := (h.parent_eq_some_iff_mem i j).mp hparent
  exact (List.pairwise_cons.mp (h.pairwise_children i)).1 j hmem

/-- The walk down from a node ends, and what it visits is the interval of its subtree. -/
theorem walksDown_iff (h : submission.LaysOut tree) (address : List Nat) (subtree : Tree)
    (hat : tree.at? address = some subtree) (visited : List Nat) :
    submission.WalksDown [tree.position address] visited ↔
      visited = List.range' (tree.position address) subtree.size := by
  have hvisit (fuel : Nat) : submission.visit (subtree.size + fuel) [tree.position address] =
      List.range' (tree.position address) subtree.size := by
    rw [h.visit_subtree address subtree hat, visit_nil, List.append_nil]
  constructor
  · intro hwalk
    rw [← hwalk.visit_eq (subtree.size + visited.length) (by omega), hvisit]
  · intro heq
    -- One unit of fuel more than there are nodes is left over.
    have hwalk := walksDown_visit submission (subtree.size + 1) [tree.position address]
      (by rw [hvisit, List.length_range']; omega)
    rw [hvisit] at hwalk
    rw [heq]
    exact hwalk

theorem walksUp_iff (h : submission.LaysOut tree) (i : Nat) (hi : i < submission.size)
    (above : List Nat) : submission.WalksUp i above ↔ above = submission.ancestors i := by
  have hancestors (above : List Nat) (hwalk : submission.WalksUp i above) :
      submission.ancestors i = above := by
    have hlength := hwalk.length_le h.parent_lt
    exact hwalk.climb_eq submission.size (by omega)
  constructor
  · intro hwalk
    exact (hancestors above hwalk).symm
  · intro heq
    obtain ⟨found, hwalk⟩ := exists_walksUp h.parent_lt i
    rw [heq, hancestors found hwalk]
    exact hwalk

theorem walksUp_ancestors (h : submission.LaysOut tree) (i : Nat) (hi : i < submission.size) :
    submission.WalksUp i (submission.ancestors i) :=
  (h.walksUp_iff i hi _).mpr rfl

/-- The walk up from any node leads to the root. -/
theorem getLast?_of_walksUp (h : submission.LaysOut tree) {i : Nat} {above : List Nat}
    (hwalk : submission.WalksUp i above) (hi : i < submission.size) :
    (i :: above).getLast? = some 0 := by
  induction hwalk with
  | top i hparent =>
    have hroot := (h.parent_eq_none i hi).mp hparent
    rw [hroot, List.getLast?_singleton]
  | step i parent above hparent _ ih =>
    have hlt := h.parent_lt parent i hparent
    rw [List.getLast?_cons_cons]
    exact ih (by omega)

/-! Down and up -/

theorem self_mem_descendants (h : submission.LaysOut tree) (i : Nat) (hi : i < submission.size) :
    i ∈ submission.descendants i := by
  obtain ⟨address, subtree, hat, rfl⟩ := h.exists_address i hi
  have hpos := subtree.size_pos
  rw [h.descendants_eq address subtree hat, List.mem_range'_1]
  omega

/-- Whoever is met on the way down was reached from a parent that was met before. -/
theorem parent_mem_descendants (h : submission.LaysOut tree) (i j : Nat)
    (hi : i < submission.size) (hj : j ∈ submission.descendants i) (hne : j ≠ i) :
    ∃ parent, submission.parent j = some parent ∧ parent ∈ submission.descendants i := by
  obtain ⟨address, subtree, hat, rfl⟩ := h.exists_address i hi
  obtain ⟨below, node, hnode, rfl⟩ := (h.mem_descendants address subtree hat j).mp hj
  rcases List.eq_nil_or_concat below with rfl | ⟨init, k, rfl⟩
  · rw [List.append_nil] at hne
    exact absurd rfl hne
  · rw [List.concat_eq_append] at hnode ⊢
    obtain ⟨above, habove, -⟩ := Tree.at?_concat subtree node init k hnode
    have hwhole : tree.at? (address ++ init ++ [k]) = some node := by
      rw [List.append_assoc, Tree.at?_append tree subtree address _ hat, hnode]
    rw [← List.append_assoc]
    refine ⟨_, h.parent_concat (address ++ init) k node hwhole, ?_⟩
    exact (h.mem_descendants address subtree hat _).mpr ⟨init, above, habove, rfl⟩

theorem mem_of_walksUp_of_mem_descendants (h : submission.LaysOut tree) (i : Nat)
    (hi : i < submission.size) {j : Nat} {above : List Nat}
    (hwalk : submission.WalksUp j above) (hj : j ∈ submission.descendants i) :
    j = i ∨ i ∈ above := by
  induction hwalk with
  | top j hparent =>
    by_cases hne : j = i
    · exact Or.inl hne
    · obtain ⟨parent, hsome, -⟩ := h.parent_mem_descendants i j hi hj hne
      rw [hparent] at hsome
      simp at hsome
  | step j parent above hparent _ ih =>
    by_cases hne : j = i
    · exact Or.inl hne
    · obtain ⟨found, hsome, hmem⟩ := h.parent_mem_descendants i j hi hj hne
      have hsame : parent = found := Option.some.inj (hparent.symm.trans hsome)
      rw [← hsame] at hmem
      rcases ih hmem with heq | habove
      · exact Or.inr (heq ▸ List.mem_cons_self)
      · exact Or.inr (List.mem_cons_of_mem parent habove)

theorem mem_descendants_of_walksUp (h : submission.LaysOut tree) (i : Nat)
    (hi : i < submission.size) {j : Nat} {above : List Nat}
    (hwalk : submission.WalksUp j above) (hmem : i ∈ above) : j ∈ submission.descendants i := by
  induction hwalk with
  | top j _ => simp at hmem
  | step j parent above hparent _ ih =>
    have hchild := (h.parent_eq_some_iff_mem parent j).mp hparent
    have hdown : parent ∈ submission.descendants i := by
      rcases List.mem_cons.mp hmem with heq | habove
      · rw [← heq]
        exact h.self_mem_descendants i hi
      · exact ih habove
    exact h.children_mem_descendants i parent j hi hdown hchild

/-- A node is met on the way down from another exactly when the other is met on the way up. -/
theorem mem_descendants_iff_mem_ancestors (h : submission.LaysOut tree) (i j : Nat)
    (hi : i < submission.size) (hj : j < submission.size) :
    j ∈ submission.descendants i ↔ j = i ∨ i ∈ submission.ancestors j := by
  have hwalk := h.walksUp_ancestors j hj
  constructor
  · intro hmem
    exact h.mem_of_walksUp_of_mem_descendants i hi hwalk hmem
  · intro heither
    rcases heither with heq | habove
    · rw [heq]
      exact h.self_mem_descendants i hi
    · exact h.mem_descendants_of_walksUp i hi hwalk habove

end LaysOut

/-- What the walks from a node tell, where the submission shows a tree. -/
structure Navigates (submission : Submission) (tree : Tree) (i : Nat) : Prop where
  down : ∀ visited, submission.WalksDown [i] visited ↔ visited = submission.descendants i
  interval : ∃ address subtree, tree.addresses[i]? = some address ∧
    tree.at? address = some subtree ∧ submission.descendants i = List.range' i subtree.size
  up : ∀ above, submission.WalksUp i above ↔ above = submission.ancestors i
  decreasing : (i :: submission.ancestors i).Pairwise (· > ·)
  root : submission.ancestors i = [] ↔ i = 0
  ends : i ≠ 0 → (submission.ancestors i).getLast? = some 0
  dual : ∀ j < submission.size,
    j ∈ submission.descendants i ↔ j = i ∨ i ∈ submission.ancestors j

theorem LaysOut.navigates {tree : Tree} (h : submission.LaysOut tree) (i : Nat)
    (hi : i < submission.size) : submission.Navigates tree i := by
  obtain ⟨address, subtree, hat, rfl⟩ := h.exists_address i hi
  have hwalk := h.walksUp_ancestors _ hi
  have hlast := h.getLast?_of_walksUp hwalk hi
  have hpairwise := hwalk.pairwise h.parent_lt
  have hinterval := h.descendants_eq address subtree hat
  have haddress := Tree.getElem?_addresses_position tree subtree address hat
  refine ⟨?_, ⟨address, subtree, haddress, hat, hinterval⟩, h.walksUp_iff _ hi, hpairwise, ?_, ?_,
    fun j hj => h.mem_descendants_iff_mem_ancestors _ j hi hj⟩
  · intro visited
    rw [hinterval]
    exact h.walksDown_iff address subtree hat visited
  · constructor
    · intro hnone
      rw [hnone, List.getLast?_singleton] at hlast
      exact Option.some.inj hlast
    · intro hroot
      -- The root has no parent, so nothing is smaller on the way up.
      cases hancestors : submission.ancestors (tree.position address) with
      | nil => rfl
      | cons parent above =>
        rw [hancestors] at hpairwise
        have hlt := (List.pairwise_cons.mp hpairwise).1 parent List.mem_cons_self
        omega
  · intro hne
    cases hancestors : submission.ancestors (tree.position address) with
    | nil =>
      rw [hancestors, List.getLast?_singleton] at hlast
      exact absurd (Option.some.inj hlast) hne
    | cons parent above =>
      rw [hancestors, List.getLast?_cons_cons] at hlast
      exact hlast

/-- The walk down from the root meets every node once, in the order of their indices. -/
theorem descendants_root (source : String) (parse : Parse) :
    (ofParse source parse).descendants 0 = (ofParse source parse).indices := by
  cases hprune : parse.tree.prune with
  | none =>
    have hsize := size_ofParse_of_prune_eq_none source parse hprune
    rw [descendants, indices, hsize]
    rfl
  | some kept =>
    have hlays := laysOut_ofParse source parse kept hprune
    have hinterval := hlays.descendants_eq [] kept rfl
    rw [indices, hlays.size_eq, List.range_eq_range']
    exact hinterval

/-- In every submission the walks from every node end. Down it is an interval of as many indices
as the subtree has nodes, up it is strictly towards the root, and the two agree on what stands
below what. -/
theorem navigation_is_consistent (source : String) (parse : Parse) :
    (ofParse source parse).descendants 0 = (ofParse source parse).indices ∧
    ∀ i < (ofParse source parse).size, ∃ kept, parse.tree.prune = some kept ∧
      (ofParse source parse).Navigates kept i := by
  refine ⟨descendants_root source parse, ?_⟩
  intro i hi
  cases hprune : parse.tree.prune with
  | none =>
    have hsize := size_ofParse_of_prune_eq_none source parse hprune
    omega
  | some kept => exact ⟨kept, rfl, (laysOut_ofParse source parse kept hprune).navigates i hi⟩

/-- A call with a missing bracket before another statement: the walk down from the arguments skips
the bracket and stops before the statement. -/
theorem navigation_is_consistent_unclosed_call :
    let rule (kind : String) (start stop : Nat) : List Tree → Tree :=
      .node ⟨kind, true, false, none, ⟨start, stop⟩⟩
    let token (kind : String) (missing : Bool) (start stop : Nat) : Tree :=
      .node ⟨kind, false, missing, none, ⟨start, stop⟩⟩ []
    let call := rule "call_expression" 0 3 [rule "identifier" 0 1 [],
      rule "arguments" 1 3
        [token "(" false 1 2, rule "identifier" 2 3 [], token ")" true 3 3]]
    let parse : Parse := ⟨rule "program" 0 5 [call, rule "expression_statement" 4 5 []], true⟩
    let submission := ofParse "f(a x" parse
    3 < submission.size ∧ submission.descendants 3 = [3, 4, 5] ∧
      submission.ancestors 3 = [1, 0] ∧ submission.indices = [0, 1, 2, 3, 4, 5, 6] ∧
      submission.descendants 0 = submission.indices ∧
      ∃ kept, parse.tree.prune = some kept ∧ submission.Navigates kept 3 := by
  intro rule token call parse submission
  have hsize : 3 < submission.size := by decide +kernel
  obtain ⟨hroot, hnodes⟩ := navigation_is_consistent "f(a x" parse
  exact ⟨hsize, by decide +kernel, by decide +kernel, by decide +kernel, hroot, hnodes 3 hsize⟩

end Rubric.Submission
