/-!
Paths as they are written. A path is a text cut at its slashes into segments. Empty segments and
single dots name nothing, except for a dot at the very start. The text is kept as it was given, so
a parent is a part of it and is shown the same way.
-/
namespace Rubric

structure Path where
  text : String
deriving Repr, DecidableEq

namespace Path

abbrev Segment := List Char

def splitSlash : List Char → List Segment
  | [] => [[]]
  | c :: rest =>
      match splitSlash rest with
      | [] => [[c]]
      | segment :: segments =>
          if c = '/' then [] :: segment :: segments else (c :: segment) :: segments

def joinSlash : List Segment → List Char
  | [] => []
  | [segment] => segment
  | segment :: next :: rest => segment ++ '/' :: joinSlash (next :: rest)

def segments (path : Path) : List Segment := splitSlash path.text.toList

def isAbsolute (path : Path) : Bool := path.text.toList.head? == some '/'

/-- Drops segments that name nothing from a path's segments, which are listed from the last to the
first. -/
def dropUnnamed : List Segment → List Segment
  | [] => []
  | [first] => if first = [] then [] else [first]
  | segment :: next :: rest =>
      if segment = [] ∨ segment = ['.'] then dropUnnamed (next :: rest)
      else segment :: next :: rest

/-- The path without its last named segment. A path that names nothing has no parent. -/
def parent? (path : Path) : Option Path :=
  match dropUnnamed path.segments.reverse with
  | [] => none
  | _ :: before =>
      match dropUnnamed before with
      | [] => some ⟨if path.isAbsolute then "/" else ""⟩
      | kept => some ⟨String.ofList (joinSlash kept.reverse)⟩

/-- The last named segment, unless it consists of dots that stand for a directory. -/
def fileName? (path : Path) : Option Segment :=
  match dropUnnamed path.segments.reverse with
  | [] => none
  | name :: _ => if name = ['.'] ∨ name = ['.', '.'] then none else some name

/-- What follows the last dot of a file name, if anything stands before that dot. -/
def extensionOf? (name : Segment) : Option Segment :=
  let suffix := (name.reverse.takeWhile (· ≠ '.')).reverse
  if suffix.length + 1 < name.length then some suffix else none

def extension? (path : Path) : Option Segment := path.fileName?.bind extensionOf?

/-- A path below a directory; an absolute one stays as it is. -/
def join (directory path : Path) : Path :=
  if path.isAbsolute then path
  else if directory.text.isEmpty || directory.text.toList.getLast? == some '/' then
    ⟨directory.text ++ path.text⟩
  else ⟨directory.text ++ "/" ++ path.text⟩

end Path

end Rubric
