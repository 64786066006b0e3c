import Rubric.Command.Arguments
import Rubric.Text.Position
import Rubric.Violation.Json

/-!
Findings as they are written to standard output. Every style ends each of its lines with a
newline. In the text style the findings themselves are shown as diagnostics, which are passed on
as data; the text here is the line that sums them up.
-/
namespace Rubric.Report

/-- Where a finding starts; one about the whole file points at its start. -/
def positionOf (source : String) (finding : Finding) : Text.Position :=
  match finding.span with
  | some span => Text.Position.ofOffset source span.start
  | none => ⟨1, 1⟩

def compactLine (name source : String) (finding : Finding) : String :=
  let position := positionOf source finding
  name ++ ":" ++ toString position.line ++ ":" ++ toString position.column ++ ": " ++
    finding.violation.taggedMessage

def compact (name source : String) (findings : List Finding) : String :=
  String.join (findings.map fun finding => compactLine name source finding ++ "\n")

def json (findings : List Finding) : String :=
  (Json.array (findings.map fun finding => finding.violation.toJson)).pretty ++ "\n"

/-- The number of findings, in green if there are none and in red otherwise. -/
def summary (name : String) (findings : List Finding) : String :=
  (if findings.isEmpty then "\x1b[32m" else "\x1b[31m") ++
    "Found " ++ toString findings.length ++ " violation(s) in " ++ name ++ "\x1b[0m\n"

def render (style : ReportStyle) (name source : String) (findings : List Finding) : String :=
  match style with
  | .text => summary name findings
  | .json => json findings
  | .compact => compact name source findings

/-- Diagnostics are shown in the text style only. -/
def diagnostics (style : ReportStyle) (name source : String) (findings : List Finding) :
    List Diagnostic :=
  match style with
  | .text => findings.map fun finding => finding.diagnostic name source
  | _ => []

end Rubric.Report
