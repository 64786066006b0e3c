/-!
Concrete trees as a grammar's parser delivers them. Each node says which rule or token it is,
whether it is a named rule, which field of its parent it fills and which bytes it covers. A
parser that recovers from errors also inserts missing nodes, which stand for nothing in the text.
-/
namespace Rubric

/-- A range of bytes, the last one excluded. -/
structure Span where
  start : Nat
  stop : Nat
deriving Repr, DecidableEq

def Span.length (span : Span) : Nat := span.stop - span.start

def Span.isEmpty (span : Span) : Bool := span.start == span.stop

namespace Grammar

/-- What a parser records about one node. -/
structure Label where
  kind : String
  named : Bool
  missing : Bool
  field : Option String
  span : Span
deriving Repr, DecidableEq

inductive Tree where
  | node (label : Label) (children : List Tree)
deriving Repr

namespace Tree

def label : Tree → Label
  | node label _ => label

def children : Tree → List Tree
  | node _ children => children

mutual

def size : Tree → Nat
  | node _ children => 1 + forestSize children

def forestSize : List Tree → Nat
  | [] => 0
  | tree :: rest => size tree + forestSize rest

end

theorem size_pos (tree : Tree) : 0 < tree.size := by
  cases tree
  simp only [size]
  omega

mutual

/-- The tree without its missing nodes and whatever stands below them; nothing is left when the
root is missing. -/
def prune : Tree → Option Tree
  | node label children =>
      if label.missing then none else some (node label (pruneForest children))

def pruneForest : List Tree → List Tree
  | [] => []
  | tree :: rest =>
      match prune tree with
      | none => pruneForest rest
      | some kept => kept :: pruneForest rest

end

mutual

def preorder : Tree → List Label
  | node label children => label :: forestPreorder children

def forestPreorder : List Tree → List Label
  | [] => []
  | tree :: rest => preorder tree ++ forestPreorder rest

end

/-- Puts a node in front of trees listed with their depths. The deeper ones next to it are its
children. -/
def graft (depth : Nat) (label : Label) (forest : List (Nat × Tree)) : List (Nat × Tree) :=
  let below := forest.takeWhile fun tree => depth < tree.1
  let beside := forest.dropWhile fun tree => depth < tree.1
  (depth, node label (below.map Prod.snd)) :: beside

/-- The tree whose nodes are listed with their depths, each before those below it. -/
def ofOutline? (outline : List (Nat × Label)) : Option Tree :=
  (outline.foldr (fun entry forest => graft entry.1 entry.2 forest) []).head?.map Prod.snd

end Tree

/-- What a parser makes of a text: a tree, and whether it had to recover from errors. -/
structure Parse where
  tree : Tree
  hasErrors : Bool
deriving Repr

/-- Why a parser makes no tree of a text. A text with syntax errors is no reason. -/
inductive ParseError where
  | language (reason : String)
  | noTree
deriving Repr, DecidableEq

def ParseError.message : ParseError → String
  | language reason => "failed to load TypeScript grammar: " ++ reason
  | noTree => "parser produced no syntax tree"

def Parse.empty : Parse :=
  ⟨.node ⟨"program", true, false, none, ⟨0, 0⟩⟩ [], false⟩

end Grammar

end Rubric
