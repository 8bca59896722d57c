import Tandem.Wire.Message
import Tandem.Wire.Octets
/-!
# Message payloads

The octets of each kind of message, without the frame header.  Writer and reader of each part stand
together: the reader takes exactly what the writer wrote, and a payload is accepted only if nothing is left
over.

A forwarded input is read as an input of the other peer, meant for the task its payload acts on; so an
input travels without its target and locality.
-/

namespace Tandem

open Wire

/-! ## Stamps -/

/-- The octets of a session time. -/
def SessionTime.octets (t : SessionTime) : Octets := littleEndian 8 t.ms.toNat

/-- Takes a session time. -/
def SessionTime.read : Reader SessionTime := do
  let n ← Reader.uint64
  pure ⟨n⟩

/-- The octets of a participant. -/
def ParticipantId.octets (p : ParticipantId) : Octets := littleEndian 8 p.id.toNat

/-- Takes a participant. -/
def ParticipantId.read : Reader ParticipantId := do
  let n ← Reader.uint64
  pure ⟨n⟩

/-- The octets of a writer: a tag, and the participant if there is one. -/
def Writer.octets : Writer → Octets
  | .scenario => [0]
  | .participant p => 1 :: p.octets

/-- Takes a writer. -/
def Writer.read : Reader Writer := do
  let tag ← Reader.byte
  if tag = 0 then pure .scenario
  else if tag = 1 then do
    let p ← ParticipantId.read
    pure (.participant p)
  else Reader.fail (.unknownWriter tag)

/-- The octets of a stamp. -/
def Stamp.octets (s : Stamp) : Octets :=
  s.time.octets ++ (littleEndian 4 s.counter.toNat ++ s.writer.octets)

/-- Takes a stamp. -/
def Stamp.read : Reader Stamp := do
  let time ← SessionTime.read
  let counter ← Reader.uint32
  let writer ← Writer.read
  pure ⟨time, counter, writer⟩

/-! ## Field values -/

/-- The octets of a floating-point number, bit for bit. -/
def Binary64.octets (x : Binary64) : Octets := littleEndian 8 x.bits.toNat

/-- Takes a floating-point number. -/
def Binary64.read : Reader Binary64 := do
  let n ← Reader.uint64
  pure ⟨n⟩

/-- The octets of a field value: a tag and the value. -/
def FieldValue.octets : FieldValue → Except Fault Octets
  | .bool b => .ok [0, if b then 1 else 0]
  | .int i => .ok (1 :: littleEndian 8 i.toUInt64.toNat)
  | .real x => .ok (2 :: x.octets)
  | .text s => do
    let body ← textOctets s
    pure (3 :: body)
  | .point x y => .ok (4 :: (x.octets ++ y.octets))

/-- Takes a field value.  Any octet but zero stands for true. -/
def FieldValue.read : Reader FieldValue := do
  let tag ← Reader.byte
  if tag = 0 then do
    let b ← Reader.byte
    pure (.bool (b ≠ 0))
  else if tag = 1 then do
    let n ← Reader.uint64
    pure (.int ⟨n⟩)
  else if tag = 2 then do
    let x ← Binary64.read
    pure (.real x)
  else if tag = 3 then do
    let s ← Reader.text
    pure (.text s)
  else if tag = 4 then do
    let x ← Binary64.read
    let y ← Binary64.read
    pure (.point x y)
  else Reader.fail (.unknownValue tag)

/-- The octets of a field change. -/
def FieldChange.octets (c : FieldChange) : Except Fault Octets := do
  let key ← textOctets c.key
  let value ← c.value.octets
  pure (key ++ (value ++ c.stamp.octets))

/-- Takes a field change. -/
def FieldChange.read : Reader FieldChange := do
  let key ← Reader.text
  let value ← FieldValue.read
  let stamp ← Stamp.read
  pure ⟨key, value, stamp⟩

/-- Takes a number of field changes; `acc` holds those taken before, last first. -/
def FieldChange.readMany : Nat → List FieldChange → Reader (List FieldChange)
  | 0, acc => fun s => .ok (acc.reverse, s)
  | n + 1, acc => fun s =>
    match FieldChange.read s with
    | .ok (c, rest) => FieldChange.readMany n (c :: acc) rest
    | .error fault => .error fault

/-- Takes the number of a task. -/
def TaskId.read : Reader TaskId := do
  let b ← Reader.byte
  match TaskId.ofByte? b with
  | some t => pure t
  | none => Reader.fail (.unknownTask b)

/-! ## Inputs -/

/-- The octets of a gauge. -/
def Gauge.octets : Gauge → Octets
  | .light n => [0, n]
  | .scale n => [1, n]

/-- Takes a gauge. -/
def Gauge.read : Reader Gauge := do
  let tag ← Reader.byte
  let n ← Reader.byte
  if tag = 0 then pure (.light n)
  else if tag = 1 then pure (.scale n)
  else Reader.fail (.unknownGauge tag)

/-- The octets of an input: a tag and the particulars. -/
def InputPayload.octets : InputPayload → Except Fault Octets
  | .monitoringAck gauge => .ok (0 :: gauge.octets)
  | .trackingMove dx dy => .ok (1 :: (dx.octets ++ dy.octets))
  | .communicationTune radio frequency => do
    let name ← textOctets radio
    pure (2 :: (name ++ frequency.octets))
  | .pumpToggle pump => .ok [3, pump]
  | .matchSelect object => .ok (4 :: littleEndian 4 object.id.toNat)
  | .matchCentering score => .ok (5 :: score.octets)

/-- Takes an input. -/
def InputPayload.read : Reader InputPayload := do
  let tag ← Reader.byte
  if tag = 0 then do
    let gauge ← Gauge.read
    pure (.monitoringAck gauge)
  else if tag = 1 then do
    let dx ← Binary64.read
    let dy ← Binary64.read
    pure (.trackingMove dx dy)
  else if tag = 2 then do
    let radio ← Reader.text
    let frequency ← Binary64.read
    pure (.communicationTune radio frequency)
  else if tag = 3 then do
    let pump ← Reader.byte
    pure (.pumpToggle pump)
  else if tag = 4 then do
    let n ← Reader.uint32
    pure (.matchSelect ⟨n⟩)
  else if tag = 5 then do
    let score ← Binary64.read
    pure (.matchCentering score)
  else Reader.fail (.unknownInput tag)

/-! ## Whole messages -/

namespace SyncMessage

/-- The payload of a message. -/
def encode : SyncMessage → Except Fault Octets
  | delta task changes =>
    if changes.length < UInt16.size then do
      let bodies ← changes.mapM FieldChange.octets
      pure (task.toByte :: (littleEndian 2 changes.length ++ bodies.flatten))
    else .error (.wire (.tooManyChanges changes.length))
  | forward event stamp => do
    let input ← event.payload.octets
    pure (event.origin.octets ++ (event.time.octets ++ (stamp.octets ++ input)))
  | heartbeat time => .ok time.octets
  | hello participant resumeFrom => .ok (0 :: (participant.octets ++ littleEndian 8 resumeFrom.toNat))
  | start seed => .ok (1 :: seed.octets)
  | pause time => .ok (2 :: time.octets)
  | resume time => .ok (3 :: time.octets)
  | finish => .ok [4]

/-- Takes the payload of a delta. -/
def readDelta : Reader SyncMessage := do
  let task ← TaskId.read
  let count ← Reader.nat 2
  let changes ← FieldChange.readMany count []
  pure (delta task changes)

/-- Takes the payload of a forwarded input. -/
def readForward : Reader SyncMessage := do
  let origin ← ParticipantId.read
  let time ← SessionTime.read
  let stamp ← Stamp.read
  let payload ← InputPayload.read
  pure (forward ⟨origin, false, payload.task, time, payload⟩ stamp)

/-- Takes the payload of a heartbeat. -/
def readHeartbeat : Reader SyncMessage := do
  let time ← SessionTime.read
  pure (heartbeat time)

/-- Takes the payload of a message that steers the session. -/
def readControl : Reader SyncMessage := do
  let tag ← Reader.byte
  if tag = 0 then do
    let participant ← ParticipantId.read
    let resumeFrom ← Reader.uint64
    pure (hello participant resumeFrom)
  else if tag = 1 then do
    let seed ← SessionTime.read
    pure (start seed)
  else if tag = 2 then do
    let time ← SessionTime.read
    pure (pause time)
  else if tag = 3 then do
    let time ← SessionTime.read
    pure (resume time)
  else if tag = 4 then pure finish
  else Reader.fail (.unknownControl tag)

/-- Takes the payload of a message of a given type. -/
def read : MessageType → Reader SyncMessage
  | .stateDelta => readDelta
  | .inputForward => readForward
  | .heartbeat => readHeartbeat
  | .sessionControl => readControl

/-- The message of a given type with a payload. -/
def decode (type : MessageType) (payload : Octets) : Except Fault SyncMessage := (read type).readAll payload

end SyncMessage

end Tandem
