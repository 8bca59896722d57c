import Tandem.Store.Basic
import Tandem.Matching.Coordinator
import Tandem.Task.Effects
/-!
# The task battery of one peer

The battery is the store together with the matching coordinator: everything that scenario commands and
participant inputs act on.  Commands for the session as a whole are handed back to the caller, who owns the
course of the session.
-/

namespace Tandem

/-- The tasks of one peer. -/
structure Battery where
  store : Store
  matching : Coordinator

/-- A command for the session as a whole. -/
inductive SessionCommand where
  | finish
  | pause
  | resume
  /-- A message for the session log. -/
  | log (message : String)
  /-- Whether a renderer shows labels. -/
  | showLabels (on : Bool)
  /-- Whether the operator may leave early. -/
  | allowEscape (on : Bool)
  /-- Whether the operator may close the window. -/
  | allowAltF4 (on : Bool)
deriving DecidableEq

namespace SessionCommand

/-- The command of an action on the session. -/
def ofAction? : Action → Option SessionCommand
  | .finish => some finish
  | .pause => some pause
  | .resume => some resume
  | _ => none

/-- The command of a parameter of the session. -/
def ofParameter? (parameter : FieldKey) (value : String) : Option SessionCommand :=
  if parameter = "messagetolog" then some (log value)
  else if parameter = "showlabels" then (FieldValue.readBool? (Text.trim value)).map showLabels
  else if parameter = "allowescape" then (FieldValue.readBool? (Text.trim value)).map allowEscape
  else if parameter = "allowaltf4" then (FieldValue.readBool? (Text.trim value)).map allowAltF4
  else none

end SessionCommand

/-- What became of a scenario command. -/
inductive Dispatch where
  /-- Fields of a task were written. -/
  | applied (task : TaskId) (outcome : Outcome)
  /-- The caller has to act. -/
  | session (command : SessionCommand)
  /-- The command does not fit its target, or writes nothing. -/
  | skipped
deriving DecidableEq

namespace Battery

/-- The battery at the start of a session. -/
def new (capacity : Nat) (participants : ParticipantId × ParticipantId) : Battery :=
  ⟨.new capacity, .new participants⟩

/-- Applies a mutation to the store. -/
def apply (b : Battery) (m : Mutation) : Battery × Outcome :=
  let (store, outcome) := b.store.apply m
  ({ b with store := store }, outcome)

/-- Applies scripted changes, if there are any. -/
def applyScripted (b : Battery) (t : TaskId) (changes : List FieldChange) : Battery × Dispatch :=
  if changes.isEmpty then (b, .skipped)
  else
    let (b, outcome) := b.apply ⟨t, .scenario, changes⟩
    (b, .applied t outcome)

/-- Performs a scripted action on a task. -/
def runAction (b : Battery) (t : TaskId) (a : Action) (due : SessionTime) : Battery × Dispatch :=
  let stamp := Stamp.scripted due
  match a with
  | .addObject =>
    let (matching, changes) := b.matching.addObject (b.store.read t) stamp
    { b with matching := matching }.applyScripted t changes
  | .newRound =>
    let (matching, changes) := b.matching.newRound (b.store.read t) due stamp
    { b with matching := matching }.applyScripted t changes
  | a => b.applyScripted t (a.changes stamp)

/-- Sets a scripted parameter of a task. -/
def runParameter (b : Battery) (t : TaskId) (key : FieldKey) (raw : String) (due : SessionTime) :
    Battery × Dispatch :=
  match (b.store.read t).parameterChanges? key raw (.scripted due) with
  | some changes => b.applyScripted t changes
  | none => (b, .skipped)

/-- Runs a scenario command.  Its writes are stamped with its due time, so both peers produce the same
stamps whenever they dispatch it. -/
def run (b : Battery) (c : ScenarioCommand) : Battery × Dispatch :=
  match c.payload with
  | .act .session a => (b, ((SessionCommand.ofAction? a).map .session).getD .skipped)
  | .set .session parameter value =>
    (b, ((SessionCommand.ofParameter? parameter value).map .session).getD .skipped)
  | .act (.task t) a => b.runAction t a c.due
  | .set (.task t) parameter value => b.runParameter t parameter value c.due

/-- Expires the pending matching round if its deadline has come. -/
def expireRounds (b : Battery) (now : SessionTime) : Battery × Option Outcome :=
  let (matching, changes) := b.matching.tick now (b.store.read .matching)
  let b := { b with matching := matching }
  if changes.isEmpty then (b, none)
  else
    let (b, outcome) := b.apply ⟨.matching, .scenario, changes⟩
    (b, some outcome)

/-- The changes of an input, and what it does to the matching round. -/
def inputEffect (b : Battery) (e : InputEvent) (stamp : Stamp) :
    Coordinator × Except Fault (List FieldChange) :=
  match e.payload with
  | .matchSelect object => b.matching.select e.origin object stamp
  | .matchCentering score => (b.matching, .ok (Coordinator.centering e.origin score stamp))
  | payload => (b.matching, .ok ((b.store.read e.target).inputChanges payload stamp))

/-- Applies an input under a stamp.  A task that takes no input at the moment ignores it; the coordinator may
refuse a selection. -/
def applyInput (b : Battery) (e : InputEvent) (stamp : Stamp) (origin : Origin) :
    Battery × Except Fault Outcome :=
  if !(b.store.read e.target).acceptsInput then (b, .ok .nothing)
  else
    let (matching, effect) := b.inputEffect e stamp
    let b := { b with matching := matching }
    match effect with
    | .error fault => (b, .error fault)
    | .ok [] => (b, .ok .nothing)
    | .ok changes =>
      let (b, outcome) := b.apply ⟨e.target, origin, changes⟩
      (b, .ok outcome)

end Battery

end Tandem
