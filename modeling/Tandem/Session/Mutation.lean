import Tandem.Session.Time
import Tandem.Task.Value
import Tandem.Task
/-!
# Stamped writes

A field change is one stamped write.  A mutation is a batch of changes to one task, with where they came
from.
-/

namespace Tandem

/-- One stamped field write. -/
structure FieldChange where
  key : FieldKey
  value : FieldValue
  stamp : Stamp
deriving DecidableEq

/-- Where a mutation came from. -/
inductive Origin where
  /-- A dispatched scenario command. -/
  | scenario
  /-- Input at this peer. -/
  | localInput (p : ParticipantId)
  /-- Input forwarded by the other peer. -/
  | remoteInput (p : ParticipantId)
  /-- Values computed by the other peer. -/
  | remoteDelta (p : ParticipantId)
deriving DecidableEq

namespace Origin

/-- Whether the other peer caused the mutation; such a mutation is never sent back. -/
def isRemote : Origin → Bool
  | remoteInput _ | remoteDelta _ => true
  | _ => false

/-- Whether the mutation is news to the other peer. -/
def isBroadcast : Origin → Bool
  | localInput _ => true
  | _ => false

/-- The participant who is recorded as the last one to change the task. -/
def participant? : Origin → Option ParticipantId
  | scenario => none
  | localInput p | remoteInput p | remoteDelta p => some p

/-- The name of the origin in the mutation log. -/
def label : Origin → String
  | scenario => "scenario"
  | localInput _ => "local_input"
  | remoteInput _ => "remote_input"
  | remoteDelta _ => "remote_delta"

end Origin

/-- A batch of changes to one task. -/
structure Mutation where
  task : TaskId
  origin : Origin
  changes : List FieldChange

end Tandem
