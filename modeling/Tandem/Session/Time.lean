import Tandem.Duration
import Tandem.Identity
/-!
# Session time and write stamps

Session time is what the pausable clock of a session shows, in milliseconds.  Scenario due times and round
deadlines are measured against it.  It saturates at the ends of its range.

Every field write carries a `Stamp`: the session time of the write, a counter that separates writes of one
instant, and who wrote.  Stamps are compared in this order of importance, and at the same time and counter
a participant's stamp is above the scenario's, so that a participant wins a tie with the script.
-/

namespace Tandem

/-- Milliseconds on the clock of a session. -/
structure SessionTime where
  ms : UInt64
deriving DecidableEq

namespace SessionTime

instance : LT SessionTime := ⟨fun a b => a.ms < b.ms⟩
instance : LE SessionTime := ⟨fun a b => a.ms ≤ b.ms⟩
instance : DecidableLT SessionTime := fun a b => inferInstanceAs (Decidable (a.ms < b.ms))
instance : DecidableLE SessionTime := fun a b => inferInstanceAs (Decidable (a.ms ≤ b.ms))

/-- The beginning of a session. -/
def zero : SessionTime := ⟨0⟩

/-- The largest count of milliseconds. -/
def limit : Nat := UInt64.size - 1

/-- A count of milliseconds, cut off at the limit. -/
def ofNat (n : Nat) : SessionTime := ⟨UInt64.ofNat (min n limit)⟩

/-- A number of whole seconds. -/
def ofSeconds (n : Nat) : SessionTime := ofNat (n * 1000)

/-- The whole seconds that have passed, as scenario due times count them. -/
def wholeSeconds (t : SessionTime) : Nat := min (t.ms.toNat / 1000) (UInt32.size - 1)

/-- The milliseconds by which a duration moves session time: its whole milliseconds, of which the low 64
bits count. -/
def span (d : Duration) : Nat := d.wholeMillis % UInt64.size

/-- Later by a duration. -/
def later (t : SessionTime) (d : Duration) : SessionTime := ofNat (t.ms.toNat + span d)

/-- Earlier by a duration, not before the beginning. -/
def earlier (t : SessionTime) (d : Duration) : SessionTime := ofNat (t.ms.toNat - span d)

/-- The time from `start` until `t`, nothing if `start` is later. -/
def since (t start : SessionTime) : Duration := .ofMillis (t.ms.toNat - start.ms.toNat)

/-- The later of two times. -/
def latest (a b : SessionTime) : SessionTime := if a ≤ b then b else a

/-- The earlier of two times. -/
def earliest (a b : SessionTime) : SessionTime := if a ≤ b then a else b

/-- A decimal number with leading zeros up to a width. -/
def padded (width n : Nat) : String := String.ofList (Text.paddedDigits 10 width n)

/-- The form for people: hours, minutes, seconds and milliseconds. -/
def label (t : SessionTime) : String :=
  let s := t.ms.toNat / 1000
  s!"{s / 3600}:{padded 2 (s / 60 % 60)}:{padded 2 (s % 60)}.{padded 3 (t.ms.toNat % 1000)}"

/-- The form for diagnostics. -/
def describe (t : SessionTime) : String := s!"t({t.ms.toNat}ms)"

theorem le_iff {a b : SessionTime} : a ≤ b ↔ a.ms.toNat ≤ b.ms.toNat := UInt64.le_iff_toNat_le

theorem toNat_ofNat (n : Nat) : (ofNat n).ms.toNat = min n limit :=
  Nat.mod_eq_of_lt (Nat.lt_succ_of_le (Nat.min_le_right n limit))

/-- What is cut off at the limit is not before any time it was not before. -/
theorem le_ofNat {t : SessionTime} {n : Nat} (h : t.ms.toNat ≤ n) : t ≤ ofNat n := by
  have below : t.ms.toNat ≤ limit := Nat.le_of_lt_succ t.ms.toNat_lt
  rw [le_iff, toNat_ofNat]
  exact Nat.le_min.mpr ⟨h, below⟩

theorem wholeSeconds_mono {s t : SessionTime} (h : s ≤ t) : s.wholeSeconds ≤ t.wholeSeconds := by
  have le := le_iff.mp h
  unfold wholeSeconds
  omega

/-- A whole second that the clock can count has come exactly if that many seconds have passed. -/
theorem ofSeconds_le_iff {n : Nat} (countable : n < UInt32.size) (t : SessionTime) :
    ofSeconds n ≤ t ↔ n ≤ t.wholeSeconds := by
  have size : UInt32.size = 2 ^ 32 := rfl
  have top : limit = 2 ^ 64 - 1 := rfl
  rw [le_iff, ofSeconds, toNat_ofNat, wholeSeconds]
  omega

/-- Later seconds are not earlier on the session clock. -/
theorem ofSeconds_mono {a b : Nat} (h : a ≤ b) : ofSeconds a ≤ ofSeconds b := by
  rw [le_iff, ofSeconds, ofSeconds, toNat_ofNat, toNat_ofNat]
  omega

end SessionTime

/-- Who performed a field write. -/
inductive Writer where
  | scenario
  | participant (p : ParticipantId)
deriving DecidableEq

namespace Writer

/-- The participant, if the scenario did not write. -/
def participant? : Writer → Option ParticipantId
  | scenario => none
  | participant p => some p

/-- The place of a writer: the scenario first, then the participants by number. -/
def rank : Writer → Nat
  | scenario => 0
  | participant p => p.id.toNat + 1

end Writer

/-- The stamp of a field write. -/
structure Stamp where
  time : SessionTime
  counter : UInt32
  writer : Writer
deriving DecidableEq

namespace Stamp

/-- The stamp of a scripted write: its due time rather than the time at which it was dispatched, so that
both peers stamp it alike. -/
def scripted (due : SessionTime) : Stamp := ⟨due, 0, .scenario⟩

/-- The stamp every field starts with. -/
def genesis : Stamp := scripted .zero

/-- Comparison by time, then counter, then writer. -/
def Before (a b : Stamp) : Prop :=
  a.time < b.time ∨ a.time = b.time ∧
    (a.counter < b.counter ∨ a.counter = b.counter ∧ a.writer.rank < b.writer.rank)

instance : LT Stamp := ⟨Before⟩
instance : LE Stamp := ⟨fun a b => ¬ Before b a⟩

instance : DecidableLT Stamp := fun a b => by
  change Decidable (Before a b)
  unfold Before
  infer_instance

instance : DecidableLE Stamp := fun a b => inferInstanceAs (Decidable (¬ b < a))

/-- The higher of two stamps. -/
def highest (a b : Stamp) : Stamp := if a ≤ b then b else a

end Stamp

end Tandem
