import Rubric.Files.Path

/-!
Files and directories, and what a path leads to among them. Every segment on the way has to be
there, and only a directory has anything below it. Names and paths have a greatest length, and no
path holds a null character.
-/
namespace Rubric

namespace Files

inductive Entry where
  | file (content : ByteArray)
  | directory (entries : List (String × Entry))

inductive Fault where
  | notFound
  | notDirectory
  | isDirectory
  | tooLong
  | nullCharacter
  | notText
deriving Repr, DecidableEq

def Fault.message : Fault → String
  | notFound => "No such file or directory (os error 2)"
  | notDirectory => "Not a directory (os error 20)"
  | isDirectory => "Is a directory (os error 21)"
  | tooLong => "File name too long (os error 36)"
  | nullCharacter => "file name contained an unexpected NUL byte"
  | notText => "stream did not contain valid UTF-8"

/-- The content as text, which has to be valid UTF-8. -/
def textOf (content : ByteArray) : Except Fault String :=
  match String.fromUTF8? content with
  | some text => .ok text
  | none => .error .notText

namespace Entry

def find? (entries : List (String × Entry)) (name : String) : Option Entry :=
  (entries.find? fun entry => entry.1 == name).map Prod.snd

def replace (entries : List (String × Entry)) (name : String) (entry : Entry) :
    List (String × Entry) :=
  (name, entry) :: entries.filter fun other => other.1 != name

def get? : Entry → List String → Option Entry
  | entry, [] => some entry
  | .file _, _ :: _ => none
  | .directory entries, name :: rest => (find? entries name).bind (get? · rest)

/-- Puts an entry at the end of a chain of names. Directories that are missing on the way are
made. -/
def put : Entry → List String → Entry → Entry
  | _, [], new => new
  | .file _, name :: rest, new => .directory [(name, put (.directory []) rest new)]
  | .directory entries, name :: rest, new =>
      .directory (replace entries name (put ((find? entries name).getD (.directory [])) rest new))

end Entry

end Files

/-- All files, and the directory that relative paths start from. -/
structure Files where
  root : Files.Entry
  current : List String

namespace Files

/-- Bytes of the longest name in a directory. -/
def nameLimit : Nat := 255

/-- Bytes of the longest path. -/
def pathLimit : Nat := 4095

/-- One segment further from a place, which is a chain of names from the root. Two dots lead back
up, and stay at the root. -/
def step (files : Files) (place : List String) (segment : Path.Segment) :
    Except Fault (List String) :=
  match files.root.get? place with
  | none => .error .notFound
  | some (.file _) => .error .notDirectory
  | some (.directory entries) =>
      if segment = [] ∨ segment = ['.'] then .ok place
      else if segment = ['.', '.'] then .ok place.dropLast
      else if nameLimit < (String.ofList segment).utf8ByteSize then .error .tooLong
      else if (Entry.find? entries (String.ofList segment)).isSome then
        .ok (place ++ [String.ofList segment])
      else .error .notFound

/-- The place that a path leads to. The path as a whole is judged before any of its segments. -/
def locate (files : Files) (path : Path) : Except Fault (List String) :=
  if path.text.toList.contains '\x00' then .error .nullCharacter
  else if path.text.isEmpty then .error .notFound
  else if pathLimit < path.text.utf8ByteSize then .error .tooLong
  else path.segments.foldlM files.step (if path.isAbsolute then [] else files.current)

def entry (files : Files) (path : Path) : Except Fault Entry :=
  match files.locate path with
  | .error fault => .error fault
  | .ok place =>
      match files.root.get? place with
      | some entry => .ok entry
      | none => .error .notFound

def isThere (files : Files) (path : Path) : Bool :=
  match files.entry path with
  | .ok _ => true
  | .error _ => false

def isFile (files : Files) (path : Path) : Bool :=
  match files.entry path with
  | .ok (.file _) => true
  | _ => false

def readText (files : Files) (path : Path) : Except Fault String :=
  match files.entry path with
  | .error fault => .error fault
  | .ok (.directory _) => .error .isDirectory
  | .ok (.file content) => textOf content

def write (files : Files) (name content : String) : Except Fault Files :=
  match files.root.get? files.current with
  | some (.directory entries) =>
      match Entry.find? entries name with
      | some (.directory _) => .error .isDirectory
      | _ => .ok { files with
          root := files.root.put (files.current ++ [name]) (.file content.toUTF8) }
  | some (.file _) => .error .notDirectory
  | none => .error .notFound

end Files

end Rubric
