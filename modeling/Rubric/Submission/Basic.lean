import Rubric.Grammar.Cursor
import Rubric.Submission.Kind
import Rubric.Text.Slice

/-!
A parsed submission: its text and a flat list of nodes in document order. Each node knows its
parent and its children by index, so checks can move up and down without holding the tree. The
list is filled by one walk over the parser's tree that leaves out missing nodes.
-/
namespace Rubric

open Grammar

namespace Submission

structure Node where
  kind : NodeKind
  field : Option String
  span : Span
  parent : Option Nat
  children : List Nat
deriving Repr, DecidableEq

end Submission

structure Submission where
  source : String
  nodes : Array Submission.Node
  hasErrors : Bool

namespace Submission

def Node.adopt (child : Nat) (node : Node) : Node :=
  { node with children := node.children ++ [child] }

/-- Appends a node below the innermost open ancestor. -/
def append (nodes : Array Node) (ancestors : List Nat) (label : Label) : Array Node :=
  let node : Node :=
    ⟨NodeKind.ofGrammar label.kind label.named, label.field, label.span, ancestors.head?, []⟩
  match ancestors.head? with
  | none => nodes.push node
  | some parent => (nodes.modify parent (Node.adopt nodes.size)).push node

/-- Walks the tree from a cursor. The ancestors are the indices of the nodes above the cursor,
the innermost first; leaving a level closes one of them. -/
def walk (cursor : Cursor) (ancestors : List Nat) (nodes : Array Node) : Array Node :=
  if cursor.focus.label.missing then
    match _h : cursor.skip? with
    | none => nodes
    | some step => walk step.1 (ancestors.drop step.2) nodes
  else
    let grown := append nodes ancestors cursor.focus.label
    match _h : cursor.firstChild? with
    | some child => walk child (nodes.size :: ancestors) grown
    | none =>
        match _h : cursor.skip? with
        | none => grown
        | some step => walk step.1 (ancestors.drop step.2) grown
termination_by cursor.ahead
decreasing_by
  · exact Cursor.ahead_skip cursor step _h
  · exact Cursor.ahead_firstChild cursor child _h
  · exact Cursor.ahead_skip cursor step _h

def ofParse (source : String) (parse : Parse) : Submission :=
  ⟨source, walk (Cursor.start parse.tree) [] #[], parse.hasErrors⟩

variable (submission : Submission)

def size : Nat := submission.nodes.size

def indices : List Nat := List.range submission.size

def kind (i : Nat) : NodeKind :=
  match submission.nodes[i]? with
  | some node => node.kind
  | none => .other

def field (i : Nat) : Option String := submission.nodes[i]?.bind Node.field

def span (i : Nat) : Span :=
  match submission.nodes[i]? with
  | some node => node.span
  | none => ⟨0, 0⟩

def parent (i : Nat) : Option Nat := submission.nodes[i]?.bind Node.parent

def children (i : Nat) : List Nat :=
  match submission.nodes[i]? with
  | some node => node.children
  | none => []

/-- Text between two byte offsets, empty when they are no places in the source. -/
def slice (span : Span) : String :=
  (Text.slice? submission.source span.start span.stop).getD ""

def text (i : Nat) : String := submission.slice (submission.span i)

def childByField (i : Nat) (name : String) : Option Nat :=
  (submission.children i).find? fun child => submission.field child == some name

/-- Visits a stack of nodes, each before its children. No node is met twice, so the number of
nodes is fuel enough. -/
def visit : Nat → List Nat → List Nat
  | 0, _ => []
  | _ + 1, [] => []
  | fuel + 1, i :: stack => i :: visit fuel (submission.children i ++ stack)

def descendants (i : Nat) : List Nat := submission.visit submission.size [i]

/-- Follows parents. A parent comes before its children, so the number of nodes is fuel
enough. -/
def climb : Nat → Nat → List Nat
  | 0, _ => []
  | fuel + 1, i =>
      match submission.parent i with
      | none => []
      | some parent => parent :: climb fuel parent

def ancestors (i : Nat) : List Nat := submission.climb submission.size i

end Submission

end Rubric
