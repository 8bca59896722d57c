import Tandem.Wire.Payload
/-!
# Frames

A frame is a header of forty octets and a payload.  On a stream, frames follow each other without a gap;
the payload length in the header tells where the next one starts.
-/

namespace Tandem

/-- The flag bits of a frame. -/
structure FrameFlags where
  bits : UInt16
deriving DecidableEq

namespace FrameFlags

/-- No flag. -/
def none : FrameFlags := ⟨0⟩

/-- The bit of a frame that is sent again. -/
def resendBit : UInt16 := 1

/-- The bit of a sender that asks to be spared. -/
def backpressureBit : UInt16 := 2

/-- Sets or clears a bit. -/
def withBit (f : FrameFlags) (bit : UInt16) (on : Bool) : FrameFlags :=
  ⟨if on then f.bits ||| bit else f.bits &&& ~~~bit⟩

/-- Whether the frame is sent again. -/
def isResend (f : FrameFlags) : Bool := f.bits &&& resendBit ≠ 0

/-- Whether the sender asks to be spared. -/
def isBackpressure (f : FrameFlags) : Bool := f.bits &&& backpressureBit ≠ 0

/-- Marks a frame as sent again, or not. -/
def setResend (f : FrameFlags) (on : Bool) : FrameFlags := f.withBit resendBit on

/-- Marks the sender as asking to be spared, or not. -/
def setBackpressure (f : FrameFlags) (on : Bool) : FrameFlags := f.withBit backpressureBit on

/-- The flags set in either. -/
def union (f g : FrameFlags) : FrameFlags := ⟨f.bits ||| g.bits⟩

end FrameFlags

/-- The size of a header. -/
def headerSize : Nat := 40

/-- The version of the wire format. -/
def wireVersion : UInt8 := 1

/-- The largest payload. -/
def maxPayloadSize : Nat := 256 * 1024

/-- The type of a number in a header. -/
def MessageType.ofByte (b : UInt8) : Except Fault MessageType :=
  match ofByte? b with
  | some t => .ok t
  | none => .error (.unknownMessageType b)

/-- The header of a frame. -/
structure FrameHeader where
  version : UInt8
  type : MessageType
  flags : FrameFlags
  session : SessionId
  /-- The participant whose peer sent the frame. -/
  sender : ParticipantId
  /-- The place in the sequence of the sender, from one; zero outside the sequence. -/
  seq : UInt64
  /-- The highest sequence number the sender has received without a gap. -/
  ack : UInt64
  payloadLength : UInt32
deriving DecidableEq

namespace FrameHeader

open Wire

/-- The octets of a header. -/
def octets (h : FrameHeader) : Octets :=
  h.version :: h.type.toByte :: (littleEndian 2 h.flags.bits.toNat ++ (littleEndian 8 h.session.id.toNat
    ++ (h.sender.octets ++ (littleEndian 8 h.seq.toNat ++ (littleEndian 8 h.ack.toNat
    ++ littleEndian 4 h.payloadLength.toNat)))))

theorem length_octets (h : FrameHeader) : h.octets.length = headerSize := by
  simp [octets, ParticipantId.octets, headerSize]

/-- Writes a header over the front of a buffer. -/
def writeOver (h : FrameHeader) (buffer : Octets) : Except Fault Octets :=
  if buffer.length < headerSize then .error (.bufferTooShort headerSize buffer.length)
  else .ok (h.octets ++ buffer.drop headerSize)

/-- Takes what follows the version and the type. -/
def readRest (version : UInt8) (type : MessageType) : Reader FrameHeader := do
  let flags ← Reader.uint16
  let session ← Reader.uint64
  let sender ← ParticipantId.read
  let seq ← Reader.uint64
  let ack ← Reader.uint64
  let payloadLength ← Reader.uint32
  pure ⟨version, type, ⟨flags⟩, ⟨session⟩, sender, seq, ack, payloadLength⟩

/-- Takes a header: enough octets, then the version, then the type. -/
def read : Reader FrameHeader := fun s =>
  match s with
  | version :: type :: rest =>
    if (s.take headerSize).length < headerSize then
      .error (.bufferTooShort headerSize s.length)
    else if version ≠ wireVersion then .error (.wire (.unsupportedVersion version))
    else (MessageType.ofByte type).bind (readRest version · rest)
  | _ => .error (.bufferTooShort headerSize s.length)

/-- The header at the front of octets. -/
def parse (s : Octets) : Except Fault FrameHeader := (read s).map Prod.fst

end FrameHeader

/-- A header and a payload. -/
structure Frame where
  header : FrameHeader
  payload : Octets
deriving DecidableEq

namespace Frame

/-- The frame that carries a message, without acknowledgement or flags. -/
def ofMessage (session : SessionId) (sender : ParticipantId) (seq : UInt64) (m : SyncMessage) :
    Except Fault Frame := do
  let payload ← m.encode
  if maxPayloadSize < payload.length then .error (.wire (.payloadTooLarge payload.length maxPayloadSize))
  else pure ⟨⟨wireVersion, m.type, .none, session, sender, seq, 0, UInt32.ofNat payload.length⟩, payload⟩

/-- The message that a frame carries. -/
def message (f : Frame) : Except Fault SyncMessage := SyncMessage.decode f.header.type f.payload

/-- The sequence number of a frame. -/
def seq (f : Frame) : UInt64 := f.header.seq

/-- The frame with another acknowledgement and other flags. -/
def restamped (f : Frame) (ack : UInt64) (flags : FrameFlags) : Frame :=
  { f with header := { f.header with ack := ack, flags := flags } }

/-- The size on the wire. -/
def size (f : Frame) : Nat := headerSize + f.payload.length

/-- The octets of a frame; the header shows the length of the payload that follows. -/
def octets (f : Frame) : Octets :=
  { f.header with payloadLength := UInt32.ofNat f.payload.length }.octets ++ f.payload

/-- Reads octets that are exactly one frame. -/
def parse (s : Octets) : Except Fault Frame := do
  let (header, payload) ← FrameHeader.read s
  let announced := headerSize + header.payloadLength.toNat
  let actual := headerSize + payload.length
  if actual ≠ announced then .error (.wire (.lengthMismatch actual announced))
  else pure ⟨header, payload⟩

end Frame

end Tandem
