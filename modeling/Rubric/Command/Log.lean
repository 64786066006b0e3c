import Rubric.Engine
import Rubric.Logged
import Rubric.Text.Shown

/-!
Log lines on standard error. A line is a message and named values. Details are written only when
they are asked for. The message is made safe to show; names of detectors and modules are quoted.
-/
namespace Rubric.Log

inductive Severity where
  | info
  | debug
deriving Repr, DecidableEq

structure Entry where
  severity : Severity
  message : String
  values : List (String × String) := []
deriving Repr, DecidableEq

def info (message : String) : Entry := { severity := .info, message }

def debug (message : String) (values : List (String × String)) : Entry :=
  { severity := .debug, message, values }

def Severity.label : Severity → String
  | info => "INFO"
  | debug => "DEBUG"

def Entry.line (entry : Entry) : String :=
  entry.severity.label ++ " " ++ Text.shown entry.message ++
    String.join (entry.values.map fun value => " " ++ value.1 ++ "=" ++ value.2) ++ "\n"

/-- Details are shown to those who ask for them. -/
def Entry.visible (verbose : Bool) (entry : Entry) : Bool :=
  verbose || entry.severity == .info

def text (verbose : Bool) (entries : List Entry) : String :=
  String.join ((entries.filter (Entry.visible verbose)).map Entry.line)

def ofEvent : Engine.Event → Entry
  | .skipped detector => debug "skipped" [("detector", Text.quoted detector.name)]
  | .importRefused module => debug "import not in allow-list" [("module", Text.quoted module)]
  | .finished detector findings =>
      debug "detector finished"
        [("detector", Text.quoted detector.name), ("findings", toString findings)]
  | .checked total => debug "submission checked" [("total", toString total)]

def ofCheck (submission : Submission) (rules : Rules) : List Entry :=
  (if submission.hasErrors then
    [debug "submission has syntax errors; checking the recovered tree" []]
  else []) ++
    (Engine.standard.events submission rules).map ofEvent

end Rubric.Log
