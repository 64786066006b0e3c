import Rubric.Detector.Basic
import Rubric.Text.Quoted

/-!
Running detectors over a submission. Detectors that rules do not ask for are skipped; the
findings of the others are collected in order. What happened along the way can be logged.
-/
namespace Rubric

/-- Detectors in the order in which they run. -/
structure Engine where
  detectors : List Detector
deriving Repr, DecidableEq

namespace Engine

def standard : Engine := ⟨Detector.all⟩

def describe (engine : Engine) : String :=
  "RuleEngine \x7b detectors: [" ++
    ", ".intercalate (engine.detectors.map fun detector => Text.quoted detector.name) ++ "] \x7d"

def step (submission : Submission) (rules : Rules) (detector : Detector) :
    Unit → Logged Finding Unit :=
  fun _ =>
    if detector.applies rules then ⟨(), detector.detect submission rules⟩
    else Logged.success ()

def check (engine : Engine) (submission : Submission) (rules : Rules) : List Finding :=
  (Logged.fold () (engine.detectors.map (step submission rules))).log

def validate (engine : Engine) (submission : Submission) (rules : Rules) : List Violation :=
  (engine.check submission rules).map Finding.violation

inductive Event where
  | skipped (detector : Detector)
  | importRefused (module : String)
  | finished (detector : Detector) (findings : Nat)
  | checked (total : Nat)
deriving Repr, DecidableEq

/-- Modules of refused imports, one for each finding on an import. -/
def refusedModules (findings : List Finding) : List String :=
  findings.filterMap fun finding =>
    match finding.violation with
    | .importRefused module _ => some module
    | _ => none

def detectorEvents (submission : Submission) (rules : Rules) (detector : Detector) : List Event :=
  if detector.applies rules then
    let findings := detector.detect submission rules
    (refusedModules findings).map .importRefused ++ [.finished detector findings.length]
  else [.skipped detector]

def events (engine : Engine) (submission : Submission) (rules : Rules) : List Event :=
  engine.detectors.flatMap (detectorEvents submission rules) ++
    [.checked (engine.check submission rules).length]

end Engine

end Rubric
