import Rubric.Rules.File

/-!
Locating the rules document for a submission. A path that is given explicitly is taken as it is,
whether or not anything is there. Otherwise the first file among a fixed list of candidates is
taken: those beside the submission, then those in the global directory.
-/
namespace Rubric

inductive Origin where
  | explicit
  | submission
  | global
deriving Repr, DecidableEq

def Origin.text : Origin → String
  | explicit => "--rules"
  | submission => "submission directory"
  | global => "global config"

/-- A rules document with its format. -/
structure Located where
  path : Path
  format : Rules.Format
  origin : Origin
deriving Repr, DecidableEq

inductive LocateError where
  | notFound (directory : Path)
  | unsupported (path : Path)
deriving Repr, DecidableEq

def LocateError.message : LocateError → String
  | notFound directory =>
      "No rules document found for " ++ directory.text ++
        ". Run `rule-enforcer init` to create one."
  | unsupported path =>
      "Unsupported rules document " ++ path.text ++ ": expected a .json or .toml file"

namespace Located

/-- A document is usable when its extension names a format. -/
def ofPath (path : Path) (origin : Origin) : Except LocateError Located :=
  match Rules.Format.ofPath? path with
  | some format => .ok ⟨path, format, origin⟩
  | none => .error (.unsupported path)

def load (located : Located) (files : Files) : Except Rules.FileError Rules :=
  located.format.load files located.path

def submissionNames : List String :=
  ["rule-enforcer.json", ".rule-enforcer.json", "rule-enforcer.toml"]

def globalNames : List String := ["rules.json", "rules.toml"]

def candidatesIn (directory : Path) (names : List String) (origin : Origin) :
    List (Path × Origin) :=
  names.map fun name => (directory.join ⟨name⟩, origin)

def candidates (project : Path) (global : Option Path) : List (Path × Origin) :=
  candidatesIn project submissionNames .submission ++
    match global with
    | some directory => candidatesIn directory globalNames .global
    | none => []

def search? (files : Files) (project : Path) (global : Option Path) : Option (Path × Origin) :=
  (candidates project global).find? fun candidate => files.isFile candidate.1

def resolve (files : Files) (project : Path) (explicit global : Option Path) :
    Except LocateError Located :=
  match explicit with
  | some path => ofPath path .explicit
  | none =>
      match search? files project global with
      | some (path, origin) => ofPath path origin
      | none => .error (.notFound project)

end Located

end Rubric
