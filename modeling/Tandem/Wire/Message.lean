import Tandem.Session.Input
import Tandem.Session.Mutation
/-!
# The messages of a session

The two peers exchange participant inputs, the field values those inputs led to, and messages that steer the
session.  Hellos and heartbeats describe the connection itself: they carry no sequence number and are not
kept for sending again.
-/

namespace Tandem

/-- The type of a message in the header of its frame. -/
inductive MessageType where
  | stateDelta
  | inputForward
  | heartbeat
  | sessionControl
deriving DecidableEq

namespace MessageType

/-- Every type. -/
def all : List MessageType := [stateDelta, inputForward, heartbeat, sessionControl]

/-- The number of a type on the wire. -/
def toByte : MessageType → UInt8
  | stateDelta => 1
  | inputForward => 2
  | heartbeat => 3
  | sessionControl => 4

/-- The type of a number. -/
def ofByte? (b : UInt8) : Option MessageType := all.find? (fun t => t.toByte = b)

@[simp] theorem ofByte?_toByte (t : MessageType) : ofByte? t.toByte = some t := by cases t <;> decide

theorem toByte_of_ofByte? {b : UInt8} {t : MessageType} (h : ofByte? b = some t) : t.toByte = b := by
  simpa using List.find?_some h

end MessageType

/-- A message between the two peers. -/
inductive SyncMessage where
  /-- The values that fields of a task have after an input. -/
  | delta (task : TaskId) (changes : List FieldChange)
  /-- An input and the stamp of its writes. -/
  | forward (event : InputEvent) (stamp : Stamp)
  /-- A sign of life with the session time of the sender. -/
  | heartbeat (time : SessionTime)
  /-- The first message on a connection; `resumeFrom` is the highest sequence number received so far. -/
  | hello (participant : ParticipantId) (resumeFrom : UInt64)
  /-- Starts the session clock. -/
  | start (seed : SessionTime)
  | pause (time : SessionTime)
  | resume (time : SessionTime)
  | finish
deriving DecidableEq

namespace SyncMessage

/-- The type of a message. -/
def type : SyncMessage → MessageType
  | delta .. => .stateDelta
  | forward .. => .inputForward
  | heartbeat _ => .heartbeat
  | hello .. | start _ | pause _ | resume _ | finish => .sessionControl

/-- The task whose state the message carries. -/
def task? : SyncMessage → Option TaskId
  | delta t _ => some t
  | forward e _ => some e.target
  | _ => none

/-- The short name of a message. -/
def kind : SyncMessage → String
  | delta .. => "state_delta"
  | forward .. => "input_forward"
  | heartbeat _ => "heartbeat"
  | hello .. => "hello"
  | start _ => "start"
  | pause _ => "pause"
  | resume _ => "resume"
  | finish => "end"

/-- Whether the message describes the connection and travels outside the sequence. -/
def isLinkLocal : SyncMessage → Bool
  | heartbeat _ | hello .. => true
  | _ => false

/-- The message as the other peer sees it: an input in it was captured elsewhere. -/
def asRemote : SyncMessage → SyncMessage
  | forward e s => forward e.asRemote s
  | m => m

/-- The session time of the writes that a message carries: the stamp of an input, the latest stamp of a
delta. -/
def writeTime? : SyncMessage → Option SessionTime
  | forward _ s => some s.time
  | delta _ [] => none
  | delta _ (c :: rest) => some (rest.foldl (fun t d => t.latest d.stamp.time) c.stamp.time)
  | _ => none

end SyncMessage

end Tandem
