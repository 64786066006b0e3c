import Rubric.Files.Path

/-!
The command line. Arguments are read from left to right. Options of the program may stand before
or after the command; an option is given once at most in each of the two places. An option waits
for its value in the next argument unless the value is attached to it.
-/
namespace Rubric

inductive ReportStyle where
  | text
  | json
  | compact
deriving Repr, DecidableEq

def ReportStyle.ofName? : String → Option ReportStyle
  | "text" => some .text
  | "json" => some .json
  | "compact" => some .compact
  | _ => none

inductive Command where
  | check (file : Path) (style : ReportStyle)
  | listRules
  | init (force : Bool) (toml : Bool)
deriving Repr, DecidableEq

/-- A command with the options of the program. -/
structure Invocation where
  verbose : Bool
  rules : Option Path
  command : Command
deriving Repr, DecidableEq

namespace Arguments

inductive Switch where
  | verbose
  | version
  | force
  | toml
deriving Repr, DecidableEq

inductive Setting where
  | rules
  | format
deriving Repr, DecidableEq

inductive Flag where
  | switch (name : Switch)
  | setting (name : Setting)
deriving Repr, DecidableEq

/-- Where on the command line an argument stands: before the command, or after which one. -/
inductive Level where
  | program
  | check
  | listRules
  | init
deriving Repr, DecidableEq

def Level.ofName? : String → Option Level
  | "check" => some .check
  | "list-rules" => some .listRules
  | "init" => some .init
  | _ => none

def Level.short? : Level → Char → Option Flag
  | _, 'v' => some (.switch .verbose)
  | _, 'r' => some (.setting .rules)
  | .program, 'V' => some (.switch .version)
  | .check, 'f' => some (.setting .format)
  | _, _ => none

def Level.long? : Level → String → Option Flag
  | _, "verbose" => some (.switch .verbose)
  | _, "rules" => some (.setting .rules)
  | .program, "version" => some (.switch .version)
  | .check, "format" => some (.setting .format)
  | .init, "force" => some (.switch .force)
  | .init, "toml" => some (.switch .toml)
  | _, _ => none

inductive Stop where
  | usage
  | version
deriving Repr, DecidableEq

/-- What has been given at one level. -/
structure Given where
  verbose : Bool := false
  rules : Option Path := none
  format : Option ReportStyle := none
  force : Bool := false
  toml : Bool := false
  file : Option Path := none
deriving Repr, DecidableEq

def pathOf (text : String) : Except Stop Path :=
  if text.isEmpty then .error .usage else .ok ⟨text⟩

def Given.turnOn (given : Given) : Switch → Except Stop Given
  | .verbose => if given.verbose then .error .usage else .ok { given with verbose := true }
  | .force => if given.force then .error .usage else .ok { given with force := true }
  | .toml => if given.toml then .error .usage else .ok { given with toml := true }
  | .version => .error .version

def Given.assign (given : Given) : Setting → String → Except Stop Given
  | .rules, value =>
      if given.rules.isSome then .error .usage
      else (pathOf value).map fun path => { given with rules := some path }
  | .format, value =>
      match given.format, ReportStyle.ofName? value with
      | none, some style => .ok { given with format := some style }
      | _, _ => .error .usage

/-- What has been read so far: what was given before the command and at the current level, an
option that waits for its value, and whether options have ended. -/
structure State where
  level : Level := .program
  before : Given := {}
  given : Given := {}
  waiting : Option Setting := none
  ended : Bool := false
deriving Repr, DecidableEq

def looksLikeOption (argument : String) : Bool :=
  argument.toList.head? == some '-' && argument != "-"

def attached : List Char → String
  | '=' :: value => String.ofList value
  | value => String.ofList value

/-- Options given by letters in one argument. A letter that takes a value takes the rest, or the
next argument if nothing is left. -/
def State.letters (state : State) : List Char → Except Stop State
  | [] => .ok state
  | letter :: rest =>
      match state.level.short? letter with
      | none => .error .usage
      | some (.switch name) =>
          match state.given.turnOn name with
          | .error stop => .error stop
          | .ok given => { state with given }.letters rest
      | some (.setting name) =>
          if rest.isEmpty then .ok { state with waiting := some name }
          else (state.given.assign name (attached rest)).map fun given => { state with given }

def State.word (state : State) (text : List Char) : Except Stop State :=
  let name := text.takeWhile (· ≠ '=')
  let value := (text.dropWhile (· ≠ '=')).tail?
  match state.level.long? (String.ofList name), value with
  | some (.switch name), none =>
      (state.given.turnOn name).map fun given => { state with given }
  | some (.setting name), none => .ok { state with waiting := some name }
  | some (.setting name), some value =>
      (state.given.assign name (String.ofList value)).map fun given => { state with given }
  | _, _ => .error .usage

/-- An argument that is no option. Only the check of a file takes one. -/
def State.operand (state : State) (argument : String) : Except Stop State :=
  match state.level, state.given.file with
  | .check, none =>
      (pathOf argument).map fun path =>
        { state with given := { state.given with file := some path } }
  | _, _ => .error .usage

def State.fresh (state : State) (argument : String) : Except Stop State :=
  match state.level, Level.ofName? argument with
  | .program, some level => .ok { state with level, before := state.given, given := {} }
  | _, _ =>
      match argument.toList with
      | ['-', '-'] => .ok { state with ended := true }
      | '-' :: '-' :: text => state.word text
      | '-' :: letter :: rest => state.letters (letter :: rest)
      | _ => state.operand argument

def State.step (state : State) (argument : String) : Except Stop State :=
  if state.ended then state.operand argument
  else
    match state.waiting with
    | some name =>
        if looksLikeOption argument then .error .usage
        else
          (state.given.assign name argument).map fun given =>
            { state with given, waiting := none }
    | none => state.fresh argument

def State.command? (state : State) : Option Command :=
  match state.level, state.given.file with
  | .check, some file => some (.check file (state.given.format.getD .text))
  | .listRules, _ => some .listRules
  | .init, _ => some (.init state.given.force state.given.toml)
  | _, _ => none

/-- What is given after the command wins over what is given before it. -/
def State.finish (state : State) : Except Stop Invocation :=
  match state.waiting, state.command? with
  | none, some command => .ok
      { verbose := state.before.verbose || state.given.verbose
        rules := state.given.rules.orElse fun _ => state.before.rules
        command }
  | _, _ => .error .usage

def read (arguments : List String) : Except Stop Invocation :=
  match arguments.foldlM State.step {} with
  | .error stop => .error stop
  | .ok state => state.finish

end Arguments

end Rubric
