import Tandem.Fault
/-!
# Received sequence numbers

Sequenced frames have to arrive without a gap.  A frame ahead of the expected one means that frames were lost
with a dropped connection and have to be sent again before delivery goes on.
-/

namespace Tandem

/-- The sequence number of frames outside the sequence. -/
def unsequenced : UInt64 := 0

/-- What a sequence number without a gap before it is. -/
inductive SequenceVerdict where
  /-- The next one. -/
  | fresh
  /-- One that was delivered before. -/
  | duplicate
deriving DecidableEq

/-- The record of the sequence numbers received from the other peer. -/
structure SequenceTracker where
  /-- The highest number up to which all have been received. -/
  highest : UInt64
  duplicates : Nat
  gaps : Nat
deriving DecidableEq

namespace SequenceTracker

/-- Nothing received. -/
def new : SequenceTracker := ⟨0, 0, 0⟩

/-- Judges a sequence number without recording it. -/
def check (t : SequenceTracker) (seq : UInt64) : Except Fault SequenceVerdict :=
  let expected := t.highest + 1
  if seq < expected then .ok .duplicate
  else if seq = expected then .ok .fresh
  else .error (.outOfSequence expected seq)

/-- Records a sequence number.  A gap leaves the highest number as it was. -/
def accept (t : SequenceTracker) (seq : UInt64) : SequenceTracker × Except Fault SequenceVerdict :=
  match t.check seq with
  | .ok .fresh => ({ t with highest := seq }, .ok .fresh)
  | .ok .duplicate => ({ t with duplicates := t.duplicates + 1 }, .ok .duplicate)
  | .error fault => ({ t with gaps := t.gaps + 1 }, .error fault)

end SequenceTracker

end Tandem
