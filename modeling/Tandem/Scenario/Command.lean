import Tandem.Session.Time
import Tandem.Task
import Tandem.Task.Value
/-!
# Scenario commands

A scenario is a list of commands that both peers run.  A command is due at a whole second; it either performs
an action or sets a parameter, on the session as a whole or on one task.

Commands due in one second run by decreasing priority and then in file order: this is the dispatch order
`ScenarioCommand.precedes`.
-/

namespace Tandem

/-- What a command addresses. -/
inductive Target where
  /-- The session as a whole. -/
  | session
  | task (t : TaskId)
deriving DecidableEq

namespace Target

/-- The task addressed, if it is not the session. -/
def task? : Target → Option TaskId
  | session => none
  | task t => some t

/-- The name of a target in displayed commands. -/
def label : Target → String
  | session => "__main__"
  | task t => t.name

end Target

/-- An action of a scenario, named by one word. -/
inductive Action where
  | start
  | stop
  | display
  | hide
  | pause
  | resume
  | finish
  | addObject
  | newRound
  /-- Restarts the progress timer of the resources task. -/
  | startTimer
deriving DecidableEq

namespace Action

/-- Every action. -/
def all : List Action :=
  [start, stop, display, hide, pause, resume, finish, addObject, newRound, startTimer]

/-- The word for an action. -/
def name : Action → String
  | start => "start"
  | stop => "stop"
  | display => "show"
  | hide => "hide"
  | pause => "pause"
  | resume => "resume"
  | finish => "end"
  | addObject => "addobject"
  | newRound => "newround"
  | startTimer => "progresstimerstart"

/-- The action of a word; `refresh` is another word for a new round. -/
def ofWord? (word : String) : Option Action :=
  if word = "refresh" then some newRound else all.find? (fun a => a.name = word)

/-- Whether a target has the action. -/
def allowedFor : Action → Target → Bool
  | finish, .session | pause, .session | resume, .session => true
  | _, .session => false
  | finish, .task _ => false
  | addObject, .task t | newRound, .task t => t = .matching
  | startTimer, .task t => t = .resources
  | _, .task _ => true

end Action

/-- What a command does. -/
inductive CommandPayload where
  | act (target : Target) (action : Action)
  | set (target : Target) (parameter : FieldKey) (value : String)
deriving DecidableEq

namespace CommandPayload

/-- What the command addresses. -/
def target : CommandPayload → Target
  | act t _ | set t _ _ => t

/-- The task the command addresses, if any. -/
def task? (p : CommandPayload) : Option TaskId := p.target.task?

/-- The form for people. -/
def label : CommandPayload → String
  | act t a => s!"{t.label};{a.name}"
  | set t parameter value => s!"{t.label};{parameter};{value}"

end CommandPayload

/-- A command of a scenario. -/
structure ScenarioCommand where
  /-- Whole seconds after the start of the session. -/
  dueSecond : Nat
  /-- Of the commands of one second, those of higher priority run first. -/
  priority : Nat
  payload : CommandPayload
  /-- The line of the scenario, counted from one. -/
  line : Nat
  /-- The position among the commands of the scenario. -/
  index : Nat
deriving DecidableEq

namespace ScenarioCommand

/-- The due time on the session clock. -/
def due (c : ScenarioCommand) : SessionTime := .ofSeconds c.dueSecond

/-- The stamp of everything the command writes. -/
def stamp (c : ScenarioCommand) : Stamp := .scripted c.due

/-- The dispatch order: by due second, then higher priority first, then file order.  Commands that agree in
all three precede each other. -/
def precedes (a b : ScenarioCommand) : Bool :=
  a.dueSecond < b.dueSecond ∨ a.dueSecond = b.dueSecond ∧
    (b.priority < a.priority ∨ a.priority = b.priority ∧ a.index ≤ b.index)

theorem precedes_total (a b : ScenarioCommand) : (a.precedes b || b.precedes a) = true := by
  simp only [precedes, Bool.or_eq_true, decide_eq_true_eq]
  omega

theorem precedes_trans (a b c : ScenarioCommand) (h₁ : a.precedes b = true) (h₂ : b.precedes c = true) :
    a.precedes c = true := by
  simp only [precedes, decide_eq_true_eq] at *
  omega

end ScenarioCommand

end Tandem
