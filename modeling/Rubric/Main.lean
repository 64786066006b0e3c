import Rubric.Command.Run
import Rubric.Grammar.Json

/-!
The program itself: reads what a run can see, runs it, and writes what it leaves behind. The tree
of a submission is taken from a file beside it, where the grammar's parser has left it.
-/
namespace Rubric.Main

def absolutePlace (current : List String) (path : Path) : List String :=
  path.segments.foldl
    (fun place segment =>
      if segment = [] ∨ segment = ['.'] then place
      else if segment = ['.', '.'] then place.dropLast
      else place ++ [String.ofList segment])
    (if path.isAbsolute then [] else current)

def entryAt (path : Path) : IO (Option Files.Entry) := do
  let place := (← IO.currentDir) / path.text
  if ← place.isDir then return some (.directory [])
  match ← (IO.FS.readBinFile place).toBaseIO with
  | .ok content => return some (.file content)
  | .error _ => return none

def pathsOf (invocation : Invocation) (globalDirectory : Option Path) : List Path :=
  match invocation.command with
  | .check file _ =>
      let project := Command.projectDirectory file
      project :: file :: invocation.rules.toList ++
        (Located.candidates project globalDirectory).map Prod.fst
  | .listRules => []
  | .init _ toml => [⟨Command.starterName (if toml then .toml else .json)⟩]

def addPath (files : Files) (path : Path) : IO Files := do
  match ← entryAt path with
  | none => return files
  | some (.directory _) =>
      let place := absolutePlace files.current path
      if (files.root.get? place).isSome then return files
      else return { files with root := files.root.put place (.directory []) }
  | some entry =>
      return { files with root := files.root.put (absolutePlace files.current path) entry }

/-- The tree that was left beside a submission. -/
def treeOf (file : Path) : IO (Option Grammar.Parse) := do
  let place := (← IO.currentDir) / (file.text ++ ".tree.json")
  match ← (IO.FS.readFile place).toBaseIO with
  | .error _ => return none
  | .ok text =>
      match Json.parse text.toList with
      | .error _ => return none
      | .ok json => return Grammar.Parse.fromJson? json

partial def readAll (stream : IO.FS.Stream) (read : ByteArray) : IO ByteArray := do
  let more ← stream.read 65536
  if more.isEmpty then return read else readAll stream (read ++ more)

def worldFor (invocation : Invocation) : IO World := do
  let home ← IO.getEnv "HOME"
  let configDirectory ← IO.getEnv "RULE_ENFORCER_CONFIG_DIR"
  let current := absolutePlace [] ⟨(← IO.currentDir).toString⟩
  let blank : World :=
    { files := ⟨Files.Entry.put (.directory []) current (.directory []), current⟩
      input := .empty
      home, configDirectory
      parser := fun _ => .error .noTree }
  let files ← (pathsOf invocation blank.globalDirectory).foldlM addPath blank.files
  match invocation.command with
  | .check file _ =>
      let input ← if Command.isInput file then readAll (← IO.getStdin) .empty else pure .empty
      match ← treeOf file with
      | some parse => return { blank with files, input, parser := fun _ => .ok parse }
      | none => return { blank with files, input }
  | _ => return { blank with files }

def diagnosticText (diagnostic : Diagnostic) : String :=
  diagnostic.message ++ "\n" ++
    String.join (diagnostic.labels.map fun mark =>
      let position := Text.Position.ofOffset diagnostic.source mark.offset
      "  at " ++ diagnostic.name ++ ":" ++ toString position.line ++ ":" ++
        toString position.column ++ "\n") ++
    "  help: " ++ diagnostic.help ++ "\n"

def keepFiles (invocation : Invocation) (outcome : Outcome) : IO Unit := do
  match invocation.command with
  | .init _ toml =>
      let name := Command.starterName (if toml then .toml else .json)
      match outcome.exitCode, outcome.files.readText ⟨name⟩ with
      | 0, .ok text => IO.FS.writeFile ((← IO.currentDir) / name) text
      | _, _ => pure ()
  | _ => pure ()

def finish (outcome : Outcome) : IO UInt32 := do
  (← IO.getStderr).putStr outcome.log
  let output ← IO.getStdout
  for diagnostic in outcome.diagnostics do
    output.putStr (diagnosticText diagnostic)
  output.putStr outcome.output
  return outcome.exitCode.toUInt32

/-- Arguments that ask for no command are answered without looking at any file. -/
def blankWorld : World :=
  ⟨⟨.directory [], []⟩, .empty, none, none, fun _ => .error .noTree⟩

def run (arguments : List String) : IO UInt32 := do
  match Arguments.read arguments with
  | .error _ => finish (Command.run blankWorld arguments)
  | .ok invocation =>
      let outcome := Command.runInvocation (← worldFor invocation) invocation
      keepFiles invocation outcome
      finish outcome

end Rubric.Main

def main (arguments : List String) : IO UInt32 := Rubric.Main.run arguments
