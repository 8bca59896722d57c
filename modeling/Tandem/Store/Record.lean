import Tandem.Store.Basic
import Tandem.Json.Writer
/-!
# Records of mutations and snapshots

One record is logged for every mutation that changed something, as a line of JSON text.  The order of the
keys is part of the format.
-/

namespace Tandem

/-- A field value in a record; the types are told apart by their notation. -/
def FieldValue.toJsonText : FieldValue → String
  | bool b => if b then "true" else "false"
  | int i => toString i.toInt
  | real x => x.toRecordText
  | text s => Json.quote s
  | point x y => Json.writeObject [("x", x.toRecordText), ("y", y.toRecordText)]

/-- The writer of a stamp in a record. -/
def Writer.toJsonText : Writer → String
  | scenario => Json.quote "Scenario"
  | participant p => Json.writeObject [("Participant", toString p.id.toNat)]

/-- A stamp in a record. -/
def Stamp.toJsonText (s : Stamp) : String :=
  Json.writeObject
    [("at", toString s.time.ms.toNat), ("counter", toString s.counter.toNat),
      ("writer", s.writer.toJsonText)]

/-- A field change in a record. -/
def FieldChange.toJsonText (c : FieldChange) : String :=
  Json.writeObject
    [("key", Json.quote c.key), ("value", c.value.toJsonText), ("stamp", c.stamp.toJsonText)]

/-- The origin of a mutation in a record. -/
def Origin.toJsonText (o : Origin) : String :=
  let source := ("source", Json.quote o.label)
  match o.participant? with
  | none => Json.writeObject [source]
  | some p => Json.writeObject [source, ("participant", toString p.id.toNat)]

/-- One applied mutation in the log. -/
structure MutationRecord where
  /-- The session time at which it was logged. -/
  time : SessionTime
  task : TaskId
  origin : Origin
  changes : List FieldChange
deriving DecidableEq

namespace MutationRecord

/-- The record of a notification. -/
def ofNotification (now : SessionTime) (n : Notification) : MutationRecord :=
  ⟨now, n.task, n.origin, n.changes⟩

/-- The line of a record. -/
def toJsonText (r : MutationRecord) : String :=
  Json.writeObject
    [("session_time", toString r.time.ms.toNat), ("task_id", Json.quote r.task.name),
      ("origin", r.origin.toJsonText), ("payload", Json.writeArray (r.changes.map (·.toJsonText)))]

end MutationRecord

/-- A snapshot as a record. -/
def TaskSnapshot.toJsonText (s : TaskSnapshot) : String :=
  Json.writeObject
    [("task", Json.quote s.task.recordName), ("version", toString s.version),
      ("last_participant", (s.lastParticipant.map (fun p => toString p.id.toNat)).getD "null"),
      ("fields", Json.writeObject (s.fields.entries.map (fun e => (e.1, e.2.toJsonText))))]

end Tandem
