import Tandem.Session.Time
import Tandem.Task
import Tandem.Number.Binary64
/-!
# Participant input

What a participant does at the controls: the payload says what was done, the event adds who did it, when,
and whether it was captured at this peer or came from the other one.
-/

namespace Tandem

/-- A gauge of the system monitoring task. -/
inductive Gauge where
  | light (n : UInt8)
  | scale (n : UInt8)
deriving DecidableEq

/-- The leading segments of the addresses of a gauge's fields. -/
def Gauge.address : Gauge → String
  | light n => s!"lights-{n.toNat}"
  | scale n => s!"scales-{n.toNat}"

/-- What a participant did. -/
inductive InputPayload where
  /-- Acknowledged a gauge: a hit if it was failing, a false alarm otherwise. -/
  | monitoringAck (gauge : Gauge)
  /-- Displaced the tracking cursor. -/
  | trackingMove (dx dy : Binary64)
  /-- Tuned a radio. -/
  | communicationTune (radio : String) (frequency : Binary64)
  /-- Switched a pump. -/
  | pumpToggle (pump : UInt8)
  /-- Selected an object of the shared scene. -/
  | matchSelect (object : ObjectId)
  /-- Reported how well the view is centred. -/
  | matchCentering (score : Binary64)
deriving DecidableEq

/-- The task that an input acts on. -/
def InputPayload.task : InputPayload → TaskId
  | monitoringAck _ => .monitoring
  | trackingMove .. => .tracking
  | communicationTune .. => .communications
  | pumpToggle _ => .resources
  | matchSelect _ | matchCentering _ => .matching

/-- An input with its circumstances. -/
structure InputEvent where
  /-- The participant who acted. -/
  origin : ParticipantId
  /-- Whether the input was captured at this peer. -/
  isLocal : Bool
  /-- The task it is meant for. -/
  target : TaskId
  /-- When it was captured, on the clock of the peer that captured it. -/
  time : SessionTime
  payload : InputPayload
deriving DecidableEq

namespace InputEvent

/-- An input captured at this peer. -/
def captured (origin : ParticipantId) (time : SessionTime) (payload : InputPayload) : InputEvent :=
  ⟨origin, true, payload.task, time, payload⟩

/-- The same input as the other peer sees it. -/
def asRemote (e : InputEvent) : InputEvent := { e with isLocal := false }

end InputEvent

end Tandem
