import Tandem.Wire.Frame
/-!
# Frames on a stream

A stream arrives in chunks that need not end where frames end.  The octets that have arrived are buffered;
a frame is taken as soon as it is complete.  A fault leaves the buffer as it was, so the stream cannot be
used any further.
-/

namespace Tandem.Wire

/-- The first frame of a buffer and the octets behind it, or nothing while the frame is incomplete. -/
def nextFrame? (buffer : Octets) : Except Fault (Option (Frame × Octets)) :=
  if (buffer.take headerSize).length < headerSize then .ok none
  else
    match FrameHeader.read buffer with
    | .error fault => .error fault
    | .ok (header, rest) =>
      let size := header.payloadLength.toNat
      if maxPayloadSize < size then .error (.wire (.payloadTooLarge size maxPayloadSize))
      else
        let payload := rest.take size
        if payload.length < size then .ok none
        else .ok (some (⟨header, payload⟩, rest.drop size))

/-- What a buffer held: the complete frames, the octets that are left, and the fault that stopped it. -/
structure Split where
  frames : List Frame
  rest : Octets
  fault : Option Fault

/-- Takes up to `limit` frames off a buffer; `acc` holds those taken before, last first. -/
def splitUpTo : (limit : Nat) → Octets → List Frame → Split
  | 0, buffer, acc => ⟨acc.reverse, buffer, none⟩
  | limit + 1, buffer, acc =>
    match nextFrame? buffer with
    | .error fault => ⟨acc.reverse, buffer, some fault⟩
    | .ok none => ⟨acc.reverse, buffer, none⟩
    | .ok (some (f, rest)) => splitUpTo limit rest (f :: acc)

/-- Takes every complete frame off a buffer.  Each has at least a header, so there are at most as many
frames as there are headers in the buffer. -/
def splitFrames (buffer : Octets) : Split := splitUpTo (buffer.length / headerSize + 1) buffer []

namespace Split

/-- Nothing has arrived. -/
def fresh : Split := ⟨[], [], none⟩

/-- Takes what a chunk completes.  After a fault nothing is taken any more. -/
def feed (s : Split) (chunk : Octets) : Split :=
  match s.fault with
  | some _ => s
  | none =>
    let more := splitFrames (s.rest ++ chunk)
    ⟨s.frames ++ more.frames, more.rest, more.fault⟩

/-- What comes of a stream that arrives in chunks. -/
def ofChunks (chunks : List Octets) : Split := chunks.foldl feed fresh

end Split

end Tandem.Wire
