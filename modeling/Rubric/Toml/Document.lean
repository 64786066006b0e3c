import Rubric.Toml.Marked
import Rubric.Toml.Reader

/-!
Whole TOML documents: lines that add a pair to the current table, and headers that open the next
one. A document is read to its lines first, which are then put together from top to bottom.
-/
namespace Rubric.Toml

inductive Line where
  | pair (key : Key) (value : Toml)
  | header (key : Key)
  | element (key : Key)
deriving Repr

def skipComment : List Char → List Char
  | '#' :: rest => rest.dropWhile isPlain
  | s => s

def lineEnd (s : List Char) : Option (List Char) :=
  match skipComment (skipSpaces s) with
  | [] => some []
  | s => newline? s

def readElementHeader (s : List Char) : Take Line :=
  match readKey s with
  | some (key, ']' :: ']' :: rest) => some (.element key, rest)
  | _ => none

def readHeader (s : List Char) : Take Line :=
  match readKey s with
  | some (key, ']' :: rest) => some (.header key, rest)
  | _ => none

def readLine : List Char → Take Line
  | '[' :: '[' :: rest => readElementHeader rest
  | '[' :: rest => readHeader rest
  | s => (readPair (readValue nestingLimit) s).map fun step => (.pair step.1.1 step.1.2, step.2)

/-- All lines of a document, without those that say nothing. Each takes a character at least, so
the length of the text is fuel enough. -/
def readLines : Nat → List Char → Option (List Line)
  | 0, _ => none
  | fuel + 1, s =>
      match skipSpaces s with
      | [] => some []
      | c :: rest =>
          if c = '#' ∨ c = '\n' ∨ c = '\r' then
            (lineEnd (c :: rest)).bind (readLines fuel)
          else
            match readLine (c :: rest) with
            | none => none
            | some (line, rest) =>
                (lineEnd rest).bind fun rest => (readLines fuel rest).map (line :: ·)

inductive Place where
  | root
  | table (key : Key)
  | element (key : Key)
deriving Repr, DecidableEq

/-- A document while it is put together: the finished tables and the current one. -/
structure Draft where
  finished : Entries
  place : Place
  current : Entries

def Draft.close (draft : Draft) : Option Entries :=
  match draft.place with
  | .root => some draft.current
  | .table key => draft.finished.placeTable key draft.current
  | .element key => draft.finished.appendTable key draft.current

def Draft.add (draft : Draft) : Line → Option Draft
  | .pair key value =>
      (draft.current.insert key value).map fun current => { draft with current }
  | .header key =>
      draft.close.bind fun finished =>
        (Entries.beneathHeader key.last key.path finished).map fun current =>
          ⟨finished, .table key, current⟩
  | .element key => draft.close.map fun finished => ⟨finished, .element key, []⟩

def Draft.empty : Draft := ⟨[], .root, []⟩

/-- The tables that lines make, or nothing when two of them do not go together. -/
def entriesOfLines (lines : List Line) : Option Entries :=
  (lines.foldlM Draft.add Draft.empty).bind Draft.close

/-- A document may start with a byte order mark. -/
def dropMark : List Char → List Char
  | '\ufeff' :: rest => rest
  | s => s

/-- The value of a document: its top-level table, unless that table is marked as a moment. -/
def parse (text : List Char) : Option Toml :=
  let text := dropMark text
  (readLines (text.length + 1) text).bind fun lines =>
    (entriesOfLines lines).bind fun entries => unmark (.table (entriesValue entries))

end Rubric.Toml
