import Tandem.Session.Time
/-!
# The session clock

The clock of a session can be started, paused, resumed and stopped.  It only moves forward, and time passes
on it only while it is started and not paused.
-/

namespace Tandem

/-- The clock that scenario due times and round deadlines are measured against. -/
structure SessionClock where
  now : SessionTime
  started : Bool
  paused : Bool

namespace SessionClock

/-- A clock at zero that has not been started. -/
def new : SessionClock := ⟨.zero, false, false⟩

/-- Starts the session at a given time, the same on both peers. -/
def startAt (_ : SessionClock) (seed : SessionTime) : SessionClock := ⟨seed, true, false⟩

/-- Starts the session at zero. -/
def start (c : SessionClock) : SessionClock := c.startAt .zero

/-- Stops the clock at the end of a session. -/
def stop (c : SessionClock) : SessionClock := { c with started := false }

/-- Holds the clock. -/
def pause (c : SessionClock) : SessionClock := { c with paused := true }

/-- Lets a held clock go on. -/
def resume (c : SessionClock) : SessionClock := { c with paused := false }

/-- Started and not paused. -/
def isRunning (c : SessionClock) : Bool := c.started && !c.paused

/-- Lets a duration pass. -/
def advance (c : SessionClock) (dt : Duration) : SessionClock :=
  if c.isRunning then { c with now := c.now.later dt } else c

/-- Jumps forward to a time; a time that has passed changes nothing. -/
def syncTo (c : SessionClock) (target : SessionTime) : SessionClock :=
  if c.now < target then { c with now := target } else c

/-- Time that passes moves the clock forward. -/
theorem le_advance (c : SessionClock) (dt : Duration) : c.now ≤ (c.advance dt).now := by
  unfold advance
  split
  · exact SessionTime.le_ofNat (Nat.le_add_right _ _)
  · exact UInt64.le_refl _

/-- So does a jump. -/
theorem le_syncTo (c : SessionClock) (target : SessionTime) : c.now ≤ (c.syncTo target).now := by
  unfold syncTo
  split
  · exact UInt64.le_of_lt ‹_›
  · exact UInt64.le_refl _

end SessionClock

end Tandem
