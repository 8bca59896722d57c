import Tandem.Scenario.Grammar
/-!
# Loading a scenario

Loading reads the lines of a text, checks each command's parameter if a check is given, and then looks at
the scenario as a whole.  A policy decides what a problem does: the first one fails the load, or every one
is skipped.
-/

namespace Tandem

/-- What a problem of a scenario does. -/
inductive LoadPolicy where
  /-- The first problem fails the load. -/
  | failFast
  /-- A problem drops its line, if it has one. -/
  | skipWithWarning
deriving DecidableEq

namespace LoadPolicy

/-- The policy in effect when none is chosen. -/
def standard : LoadPolicy := failFast

/-- Every policy. -/
def all : List LoadPolicy := [failFast, skipWithWarning]

/-- The name of a policy in configurations. -/
def name : LoadPolicy → String
  | failFast => "fail_fast"
  | skipWithWarning => "skip_with_warning"

/-- The policy of a name. -/
def ofName? (s : String) : Option LoadPolicy := all.find? (fun p => p.name = s)

end LoadPolicy

namespace Scenario

/-- Tells whether a task has a parameter. -/
abbrev ParameterCheck := TaskId → FieldKey → Bool

/-- Accepts every parameter. -/
def acceptAll : ParameterCheck := fun _ _ => true

/-- Refuses a command that sets an unknown parameter of a task. -/
def checkParameter (known : ParameterCheck) (c : ScenarioCommand) : Except Fault ScenarioCommand :=
  match c.payload with
  | .set (.task t) parameter _ =>
    if known t parameter then .ok c
    else .error ((LineFault.unknownParameter parameter t.name).inLine c.line)
  | _ => .ok c

/-- Reads one line and checks its parameter. -/
def readCommand (known : ParameterCheck) (line index : Nat) (text : String) :
    Except Fault ScenarioCommand :=
  (parseLine line index text).bind (checkParameter known)

/-- The lines that carry commands, with their numbers. -/
def numberedLines (text : String) : List (Nat × String) :=
  ((Text.pieces '\n' text).zipIdx 1).filterMap
    (fun e => if isIgnorable e.1 then none else some (e.2, e.1))

/-- Reads numbered lines under a policy.  A command is indexed by the number of commands kept before it,
which `kept` counts; `acc` holds those commands, last first. -/
def readLines (policy : LoadPolicy) (known : ParameterCheck) :
    List (Nat × String) → Nat → List ScenarioCommand → Except Fault (List ScenarioCommand)
  | [], _, acc => .ok acc.reverse
  | (line, text) :: rest, kept, acc =>
    match readCommand known line kept text with
    | .ok c => readLines policy known rest (kept + 1) (c :: acc)
    | .error fault =>
      match policy with
      | .failFast => .error fault
      | .skipWithWarning => readLines policy known rest kept acc

/-- The command that runs last; of commands that agree in everything the later in the list. -/
def lastToRun? : List ScenarioCommand → Option ScenarioCommand
  | [] => none
  | c :: rest => some (rest.foldl (fun last d => if last.precedes d then d else last) c)

/-- Whether the last command to run ends the session and shares its second with no other command. -/
def endsAlone (commands : List ScenarioCommand) : Bool :=
  match lastToRun? commands with
  | none => false
  | some last =>
    last.payload = .act .session .finish && commands.countP (fun c => c.dueSecond = last.dueSecond) ≤ 1

/-- Whether a command addresses a task. -/
def isUsed (commands : List ScenarioCommand) (t : TaskId) : Bool :=
  commands.any (fun c => c.payload.task? = some t)

/-- Whether a command starts a task. -/
def isStarted (commands : List ScenarioCommand) (t : TaskId) : Bool :=
  commands.any (fun c => c.payload = .act (.task t) .start)

/-- A problem of the scenario as a whole. -/
inductive Problem where
  | noLoneEnd
  | noTask
  | notStarted (t : TaskId)
deriving DecidableEq

/-- The wording of a problem. -/
def Problem.message : Problem → String
  | noLoneEnd => "the last command must be a lone 'end'"
  | noTask => "no task is used"
  | notStarted t => s!"task '{t.name}' has no 'start' command"

/-- A problem as a fault, placed in line 0. -/
def Problem.fault (p : Problem) : Fault := .malformedCommand 0 p.message

/-- What is wrong with a scenario as a whole. -/
def problems (commands : List ScenarioCommand) : List Problem :=
  (if endsAlone commands then [] else [.noLoneEnd])
    ++ (if TaskId.all.any (isUsed commands) then [] else [.noTask])
    ++ (TaskId.all.filter (fun t => isUsed commands t && !isStarted commands t)).map .notStarted

/-- Loads a scenario. -/
def load (policy : LoadPolicy) (known : ParameterCheck) (text : String) :
    Except Fault (List ScenarioCommand) := do
  let commands ← readLines policy known (numberedLines text) 0 []
  match policy, problems commands with
  | .failFast, problem :: _ => .error problem.fault
  | _, _ => .ok commands

end Scenario

end Tandem
