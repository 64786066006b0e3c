import Rubric.Detector.Basic

/-!
The table of detectors that the program can list.
-/
namespace Rubric.Detector

def padded (width : Nat) (text : String) : String :=
  text ++ String.ofList (List.replicate (width - text.length) ' ')

def row (code name description : String) : String :=
  padded 8 code ++ " " ++ padded 22 name ++ " " ++ description ++ "\n"

def catalogue : String :=
  "Available detectors (in report order):\n\n" ++
    row "Code" "Name" "Description" ++
    String.ofList (List.replicate 80 '-') ++ "\n" ++
    String.join (all.map fun detector => row detector.code detector.name detector.description) ++
    "\nDetectors run only when the rules document enables them, e.g.:\n" ++
    "  \x7b \"disallow\": [\"loops\", \"console\"] \x7d\n" ++
    "  \x7b \"validDeclarations\": [\"const\"] \x7d\n"

end Rubric.Detector
