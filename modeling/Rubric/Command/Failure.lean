import Rubric.Command.Locate
import Rubric.Grammar.Tree

/-!
Why a command fails, as a headline and the causes below it. Causes are indented; several of them
are numbered from zero.
-/
namespace Rubric

inductive Failure where
  | locate (error : LocateError)
  | load (path : Path) (error : Rules.FileError)
  | read (path : Path) (fault : Files.Fault)
  | readInput (fault : Files.Fault)
  | parse (name : String) (error : Grammar.ParseError)
  | alreadyThere (name : String)
  | write (name : String) (fault : Files.Fault)
deriving Repr, DecidableEq

/-- An unreadable file is told of twice, the second time without its path. -/
def Rules.FileError.causes (error : FileError) : List String :=
  match error with
  | .unreadable _ fault => [error.message, fault.message]
  | .text _ => [error.message]

/-- What keeps a grammar from being loaded is told once more by itself. -/
def Grammar.ParseError.causes (error : ParseError) : List String :=
  match error with
  | .language reason => [error.message, reason]
  | .noTree => [error.message]

namespace Failure

def headline : Failure → String
  | locate error => error.message
  | load path _ => "Failed to load " ++ path.text
  | read path _ => "Failed to read " ++ path.text
  | readInput _ => "Failed to read submission from stdin"
  | parse name _ => "Failed to parse " ++ name
  | alreadyThere name =>
      "Rules document already exists at " ++ name ++ ". Use --force to overwrite."
  | write name _ => "Failed to write " ++ name

def causes : Failure → List String
  | locate _ => []
  | load _ error => error.causes
  | read _ fault => [fault.message]
  | readInput fault => [fault.message]
  | parse _ error => error.causes
  | alreadyThere _ => []
  | write _ fault => [fault.message]

/-- Text whose first line follows a lead, and whose other lines are indented. -/
def indented (lead indent text : String) : String :=
  lead ++ String.ofList (text.toList.flatMap fun c =>
    if c = '\n' then '\n' :: indent.toList else [c])

/-- Causes with their numbers, which are right aligned. -/
def numberedFrom (start : Nat) : List String → List String
  | [] => []
  | cause :: rest =>
      let digits := toString start
      let blanks := String.ofList (List.replicate (5 - digits.length) ' ')
      indented (blanks ++ digits ++ ": ") "       " cause :: numberedFrom (start + 1) rest

def causeLines : List String → List String
  | [] => []
  | [cause] => [indented "    " "    " cause]
  | causes => numberedFrom 0 causes

def report (failure : Failure) : String :=
  let causes := causeLines failure.causes
  "Error: " ++ failure.headline ++
    (if causes.isEmpty then "" else "\n\nCaused by:\n" ++ "\n".intercalate causes) ++ "\n"

end Failure

end Rubric
