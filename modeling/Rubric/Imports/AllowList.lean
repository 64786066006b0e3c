/-!
Which imports are allowed. A pattern `*` allows every module, `module` allows everything from a
module, and `module.part` allows one name from it. Of a pattern with several dots, the module is
the text before the first and the part is the text after the last.
-/
namespace Rubric.Imports

inductive Parts where
  | everything
  | only (names : List String)
deriving Repr, DecidableEq

def Parts.allows : Parts → String → Bool
  | everything, _ => true
  | only names, name => names.contains name

/-- Modules in the order in which patterns first named them, each once. -/
inductive AllowList where
  | everyModule
  | modules (entries : List (String × Parts))
deriving Repr, DecidableEq

inductive Pattern where
  | all
  | module (name : String)
  | part (module name : String)
deriving Repr, DecidableEq

def beforeFirstDot (text : String) : String :=
  String.ofList (text.toList.takeWhile (· ≠ '.'))

def afterLastDot (text : String) : String :=
  String.ofList (text.toList.reverse.takeWhile (· ≠ '.')).reverse

def Pattern.ofText (text : String) : Pattern :=
  if text = "*" then all
  else if text.toList.contains '.' then part (beforeFirstDot text) (afterLastDot text)
  else module text

/-- Changes the entry of a module, which is absent before its first pattern. -/
def updateModule (name : String) (change : Option Parts → Parts) :
    List (String × Parts) → List (String × Parts)
  | [] => [(name, change none)]
  | (other, parts) :: rest =>
      if other = name then (other, change (some parts)) :: rest
      else (other, parts) :: updateModule name change rest

/-- Adds a name to the parts of a module, which matters only while they are restricted. -/
def Parts.addName (name : String) : Option Parts → Parts
  | none => only [name]
  | some everything => everything
  | some (only names) => only (names ++ [name])

namespace AllowList

def empty : AllowList := modules []

def add (list : AllowList) (pattern : String) : AllowList :=
  match list with
  | everyModule => everyModule
  | modules entries =>
      match Pattern.ofText pattern with
      | .all => everyModule
      | .module name => modules (updateModule name (fun _ => .everything) entries)
      | .part module name => modules (updateModule module (Parts.addName name) entries)

def ofPatterns (patterns : List String) : AllowList := patterns.foldl add empty

def parts? (list : AllowList) (module : String) : Option Parts :=
  match list with
  | everyModule => some .everything
  | modules entries => entries.lookup module

def allows (list : AllowList) (module : String) (names : List String) : Bool :=
  match list.parts? module with
  | none => false
  | some parts => names.all parts.allows

def sortedEntries (entries : List (String × Parts)) : List (String × Parts) :=
  entries.mergeSort fun left right => decide (left.1 ≤ right.1)

/-- Whether two lists have the same entries, in whatever order. -/
def sameAs : AllowList → AllowList → Bool
  | everyModule, everyModule => true
  | modules left, modules right => sortedEntries left == sortedEntries right
  | _, _ => false

end AllowList

end Rubric.Imports
