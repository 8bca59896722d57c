import Tandem.Reconciler
import Tandem.Scenario.Grammar
/-!
# Tasks without a session

A bench is the task battery and the reconciler of one peer without its clock and its link: scenario lines,
inputs and messages are brought to it by hand, at the session times that come with them.
-/

namespace Tandem

/-- The tasks of one participant on their own. -/
structure Bench where
  localId : ParticipantId
  battery : Battery
  reconciler : Reconciler
  /-- How many scenario lines have been read. -/
  lines : Nat

namespace Bench

/-- The tasks of a participant at the start of a session. -/
def new (capacity : Nat) (participants : ParticipantId × ParticipantId) (localId : ParticipantId) : Bench :=
  ⟨localId, .new capacity participants, .new localId, 0⟩

/-- The store of the tasks. -/
def store (b : Bench) : Store := b.battery.store

/-- The state of a task. -/
def read (b : Bench) (t : TaskId) : TaskState := b.store.read t

/-- Replaces the store. -/
def withStore (b : Bench) (s : Store) : Bench := { b with battery := { b.battery with store := s } }

/-- Replaces the matching coordinator. -/
def withMatching (b : Bench) (c : Coordinator) : Bench := { b with battery := { b.battery with matching := c } }

/-- Applies a mutation. -/
def apply (b : Bench) (m : Mutation) : Outcome × Bench :=
  let (battery, outcome) := b.battery.apply m
  (outcome, { b with battery := battery })

/-- Runs a scenario command. -/
def run (b : Bench) (c : ScenarioCommand) : Dispatch × Bench :=
  let (battery, dispatch) := b.battery.run c
  (dispatch, { b with battery := battery })

/-- Reads the next scenario line and runs its command. -/
def runLine (b : Bench) (text : String) : Except Fault Dispatch × Bench :=
  let n := b.lines
  let b := { b with lines := n + 1 }
  match Scenario.parseLine (n + 1) n text with
  | .error fault => (.error fault, b)
  | .ok c =>
    let (dispatch, b) := b.run c
    (.ok dispatch, b)

/-- Expires the pending matching round if its deadline has come. -/
def expireRounds (b : Bench) (now : SessionTime) : Option Outcome × Bench :=
  let (battery, outcome) := b.battery.expireRounds now
  (outcome, { b with battery := battery })

/-- Applies an input of the participant; yields the messages for the other one. -/
def input (b : Bench) (e : InputEvent) (now : SessionTime) : List SyncMessage × Bench :=
  let (reconciler, battery, messages) := b.reconciler.onLocalInput b.battery e now
  (messages, { b with reconciler := reconciler, battery := battery })

/-- Takes a message of another participant. -/
def receive (sender : ParticipantId) (b : Bench) (m : SyncMessage) : RemoteOutcome × Bench :=
  let (reconciler, battery, outcome) := b.reconciler.onRemoteMessage b.battery sender m.asRemote
  (outcome, { b with reconciler := reconciler, battery := battery })

end Bench

end Tandem
