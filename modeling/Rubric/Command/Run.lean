import Rubric.Command.Catalogue
import Rubric.Command.Failure
import Rubric.Command.Log
import Rubric.Command.Report
import Rubric.Rules.Starter

/-!
Running the program. What it sees of its surroundings is a value, and so is what it leaves behind.
The grammar that turns a submission into a tree is one of those surroundings.
-/
namespace Rubric

/-- What the program sees. -/
structure World where
  files : Files
  input : ByteArray
  home : Option String
  configDirectory : Option String
  parser : String → Except Grammar.ParseError Grammar.Parse

/-- What a run leaves behind. -/
structure Outcome where
  exitCode : Nat
  output : String
  log : String
  diagnostics : List Diagnostic
  files : Files

/-- The directory of rules for all submissions: the configured one, or one in the home
directory. -/
def World.globalDirectory (world : World) : Option Path :=
  match world.configDirectory with
  | some directory => some ⟨directory⟩
  | none => world.home.map fun home => Path.join ⟨home⟩ ⟨".rule-enforcer"⟩

namespace Command

/-- A single dash stands for standard input. -/
def isInput (file : Path) : Bool := file.text == "-"

/-- Where rules for a submission are looked for: its directory, or the current one. -/
def projectDirectory (file : Path) : Path :=
  if isInput file then ⟨"."⟩
  else
    match file.parent? with
    | some directory => if directory.text.isEmpty then ⟨"."⟩ else directory
    | none => ⟨"."⟩

def proceed {α β : Type} (logged : Logged Log.Entry (Except Failure α))
    (next : α → Logged Log.Entry (Except Failure β)) : Logged Log.Entry (Except Failure β) :=
  logged.andThen fun result =>
    match result with
    | .error failure => .success (.error failure)
    | .ok value => next value

/-- Finds the rules document. A document that was searched for is logged. -/
def locateRules (world : World) (file : Path) (explicit : Option Path) :
    Logged Log.Entry (Except Failure Located) :=
  match Located.resolve world.files (projectDirectory file) explicit world.globalDirectory with
  | .error error => .success (.error (.locate error))
  | .ok located =>
      ⟨.ok located,
        if located.origin = .explicit then []
        else [Log.debug ("Found rules: " ++ located.path.text)
          [("origin", located.origin.text)]]⟩

/-- Loads the rules document. The use of global rules is always logged. -/
def loadRules (world : World) (located : Located) : Logged Log.Entry (Except Failure Rules) :=
  ⟨match located.load world.files with
    | .error error => .error (.load located.path error)
    | .ok rules => .ok rules,
    if located.origin = .global then
      [Log.info ("Using global rules: " ++ located.path.text)]
    else []⟩

def readSubmission (world : World) (file : Path) : Except Failure (String × String) :=
  if isInput file then
    match Files.textOf world.input with
    | .error fault => .error (.readInput fault)
    | .ok source => .ok ("<stdin>", source)
  else
    match world.files.readText file with
    | .error fault => .error (.read file fault)
    | .ok source => .ok (file.text, source)

structure Checked where
  name : String
  source : String
  findings : List Finding

def parseSource (world : World) (name source : String) : Except Failure Submission :=
  match world.parser source with
  | .error error => .error (.parse name error)
  | .ok parse => .ok (Submission.ofParse source parse)

def checkSource (world : World) (rules : Rules) (name source : String) :
    Logged Log.Entry (Except Failure Checked) :=
  let start :=
    Log.debug ("Checking " ++ name ++ " (" ++ toString source.utf8ByteSize ++ " bytes)") []
  proceed ⟨parseSource world name source, [start]⟩ fun submission =>
    ⟨.ok ⟨name, source, Engine.standard.check submission rules⟩, Log.ofCheck submission rules⟩

/-- Rules are found and loaded before the submission is read. -/
def checkFile (world : World) (explicit : Option Path) (file : Path) :
    Logged Log.Entry (Except Failure Checked) :=
  proceed (locateRules world file explicit) fun located =>
    proceed (loadRules world located) fun rules =>
      proceed (.success (readSubmission world file)) fun submission =>
        checkSource world rules submission.1 submission.2

/-- A check ends with one if there are findings. -/
def runCheck (world : World) (verbose : Bool) (explicit : Option Path) (file : Path)
    (style : ReportStyle) : Outcome :=
  let logged := checkFile world explicit file
  let log := Log.text verbose logged.log
  match logged.value with
  | .error failure => ⟨1, "", log ++ failure.report, [], world.files⟩
  | .ok checked =>
      { exitCode := if checked.findings.isEmpty then 0 else 1
        output := Report.render style checked.name checked.source checked.findings
        log
        diagnostics := Report.diagnostics style checked.name checked.source checked.findings
        files := world.files }

def runListRules (world : World) : Outcome :=
  ⟨0, Detector.catalogue, "", [], world.files⟩

def starterName : Rules.Format → String
  | .json => "rule-enforcer.json"
  | .toml => "rule-enforcer.toml"

/-- Writes the starter document. One that is there already is replaced by force only. -/
def writeStarter (files : Files) (force : Bool) (format : Rules.Format) :
    Except Failure Files :=
  let name := starterName format
  if files.isThere ⟨name⟩ && !force then .error (.alreadyThere name)
  else
    match files.write name (format.render Rules.starter) with
    | .error fault => .error (.write name fault)
    | .ok files => .ok files

def nextSteps (name : String) : String :=
  "Created " ++ name ++ "\n\nNext steps:\n  1. Edit " ++ name ++
    " to match the exercise\n  2. Run: rule-enforcer check solution.ts\n"

def runInit (world : World) (force toml : Bool) : Outcome :=
  let format : Rules.Format := if toml then .toml else .json
  match writeStarter world.files force format with
  | .error failure => ⟨1, "", failure.report, [], world.files⟩
  | .ok files => ⟨0, nextSteps (starterName format), "", [], files⟩

def runInvocation (world : World) (invocation : Invocation) : Outcome :=
  match invocation.command with
  | .check file style => runCheck world invocation.verbose invocation.rules file style
  | .listRules => runListRules world
  | .init force toml => runInit world force toml

def usage : String :=
  "Usage: rule-enforcer [--verbose] [--rules PATH] <check FILE | list-rules | init>\n"

def run (world : World) (arguments : List String) : Outcome :=
  match Arguments.read arguments with
  | .ok invocation => runInvocation world invocation
  | .error .version => ⟨0, "rule-enforcer 0.2.0\n", "", [], world.files⟩
  | .error .usage => ⟨2, "", usage, [], world.files⟩

end Command

end Rubric
