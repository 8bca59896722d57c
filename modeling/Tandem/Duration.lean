/-!
# Durations

A duration is a whole number of nanoseconds.  Session time counts milliseconds, so most uses round a
duration down to those.
-/

namespace Tandem

/-- A span of time, in nanoseconds. -/
structure Duration where
  nanos : Nat
deriving DecidableEq

namespace Duration

instance : LT Duration := ⟨fun a b => a.nanos < b.nanos⟩
instance : LE Duration := ⟨fun a b => a.nanos ≤ b.nanos⟩
instance : DecidableLT Duration := fun a b => inferInstanceAs (Decidable (a.nanos < b.nanos))
instance : DecidableLE Duration := fun a b => inferInstanceAs (Decidable (a.nanos ≤ b.nanos))
instance : Add Duration := ⟨fun a b => ⟨a.nanos + b.nanos⟩⟩

/-- Nanoseconds in a second. -/
def second : Nat := 1000000000

/-- Nanoseconds in a millisecond. -/
def millisecond : Nat := 1000000

/-- No time at all. -/
def zero : Duration := ⟨0⟩

/-- The longest duration: seconds of 64 bits and a nanosecond short of one more. -/
def longest : Duration := ⟨UInt64.size * second - 1⟩

/-- A number of seconds. -/
def ofSeconds (n : Nat) : Duration := ⟨n * second⟩

/-- A number of milliseconds. -/
def ofMillis (n : Nat) : Duration := ⟨n * millisecond⟩

/-- The whole seconds. -/
def wholeSeconds (d : Duration) : Nat := d.nanos / second

/-- The nanoseconds beyond the whole seconds. -/
def subsecondNanos (d : Duration) : Nat := d.nanos % second

/-- The whole milliseconds. -/
def wholeMillis (d : Duration) : Nat := d.nanos / millisecond

/-- The longer of two durations. -/
def longer (a b : Duration) : Duration := if a ≤ b then b else a

/-- The shorter of two durations. -/
def shorter (a b : Duration) : Duration := if a ≤ b then a else b

/-- A multiple, never beyond the longest duration. -/
def scale (d : Duration) (n : Nat) : Duration := shorter ⟨d.nanos * n⟩ longest

@[simp] theorem nanos_add (a b : Duration) : (a + b).nanos = a.nanos + b.nanos := rfl

theorem wholeMillis_ofMillis (n : Nat) : (ofMillis n).wholeMillis = n :=
  Nat.mul_div_cancel n (by decide)

end Duration

end Tandem
