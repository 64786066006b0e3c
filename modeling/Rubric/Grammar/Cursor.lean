import Rubric.Grammar.Tree

/-!
A place in a tree from which it can be walked in document order. The cursor holds the tree in
focus and, for every level above it, the parent and the siblings still to come. Walking
terminates because the nodes ahead of the cursor become fewer.
-/
namespace Rubric.Grammar

structure Cursor where
  focus : Tree
  above : List (Tree × List Tree)
deriving Repr

namespace Cursor

def start (tree : Tree) : Cursor := ⟨tree, []⟩

def firstChild? (cursor : Cursor) : Option Cursor :=
  match cursor.focus.children with
  | [] => none
  | child :: rest => some ⟨child, (cursor.focus, rest) :: cursor.above⟩

/-- The next sibling at the innermost level that has one, and the number of levels left to reach
it. -/
def nextAbove : List (Tree × List Tree) → Option (Cursor × Nat)
  | [] => none
  | (parent, next :: rest) :: above => some (⟨next, (parent, rest) :: above⟩, 0)
  | (_, []) :: above => (nextAbove above).map fun step => (step.1, step.2 + 1)

/-- The first node in document order that is not below the focus, and the number of levels left
to reach it. -/
def skip? (cursor : Cursor) : Option (Cursor × Nat) := nextAbove cursor.above

def pending : List (Tree × List Tree) → Nat
  | [] => 0
  | (_, siblings) :: above => Tree.forestSize siblings + pending above

def ahead (cursor : Cursor) : Nat := cursor.focus.size + pending cursor.above

theorem ahead_firstChild (cursor child : Cursor) (h : cursor.firstChild? = some child) :
    child.ahead < cursor.ahead := by
  obtain ⟨⟨label, children⟩, above⟩ := cursor
  cases children with
  | nil => simp [firstChild?, Tree.children] at h
  | cons first rest =>
    simp only [firstChild?, Tree.children, Option.some.injEq] at h
    subst h
    simp only [ahead, pending, Tree.size, Tree.forestSize]
    omega

theorem ahead_nextAbove (above : List (Tree × List Tree)) (step : Cursor × Nat)
    (h : nextAbove above = some step) : step.1.ahead = pending above := by
  induction above generalizing step with
  | nil => simp [nextAbove] at h
  | cons level above ih =>
    obtain ⟨parent, siblings⟩ := level
    cases siblings with
    | nil =>
      simp only [nextAbove] at h
      obtain ⟨inner, hinner, rfl⟩ := Option.map_eq_some_iff.mp h
      simpa [pending, Tree.forestSize] using ih inner hinner
    | cons next rest =>
      simp only [nextAbove, Option.some.injEq] at h
      subst h
      simp only [ahead, pending, Tree.forestSize]
      omega

theorem ahead_skip (cursor : Cursor) (step : Cursor × Nat) (h : cursor.skip? = some step) :
    step.1.ahead < cursor.ahead := by
  have hpos := cursor.focus.size_pos
  have heq := ahead_nextAbove cursor.above step h
  simp only [ahead] at heq ⊢
  omega

end Cursor

end Rubric.Grammar
