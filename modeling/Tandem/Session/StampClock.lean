import Tandem.Session.Time
/-!
# Issuing stamps

Each participant's writes are stamped with the later of the session time and the latest stamp seen, plus a
counter.  A write made after another write was seen therefore has the higher stamp, even when the clocks
of the two peers disagree by a few milliseconds.
-/

namespace Tandem

/-- The stamp source of one participant. -/
structure StampClock where
  writer : ParticipantId
  /-- The latest time issued or seen. -/
  last : SessionTime
  /-- The highest counter issued or seen at that time. -/
  counter : UInt32

namespace StampClock

/-- The stamp source of a participant who has written and seen nothing yet. -/
def new (writer : ParticipantId) : StampClock := ⟨writer, .zero, 0⟩

/-- The counter after `c`, which stays at its largest value once there. -/
def nextCounter (c : UInt32) : UInt32 := if c.toNat + 1 < UInt32.size then c + 1 else c

/-- The stamp of a write at session time `now`, and the source after it. -/
def issue (c : StampClock) (now : SessionTime) : Stamp × StampClock :=
  let after : StampClock :=
    if c.last < now then { c with last := now, counter := 0 }
    else { c with counter := nextCounter c.counter }
  (⟨after.last, after.counter, .participant c.writer⟩, after)

/-- Takes note of a stamp written by the scenario or by the other participant. -/
def observe (c : StampClock) (s : Stamp) : StampClock :=
  if c.last < s.time then { c with last := s.time, counter := s.counter }
  else if s.time = c.last ∧ c.counter < s.counter then { c with counter := s.counter }
  else c

end StampClock

end Tandem
