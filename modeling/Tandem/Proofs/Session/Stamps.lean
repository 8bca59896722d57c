import Tandem.Session.StampClock
/-!
# Stamps on a line

Stamps are compared by time, then by counter, then by writer.  `Stamp.weight` puts all three into one number, so
that arguments about the order of stamps are arguments about numbers; `Stamp.moment` is the part that a stamp
source counts, time and counter without the writer.

A source is never behind what it has issued or seen (`StampClock.moment_le_observe`), and what it issues is ahead
of that as long as its counter has not come to its end (`StampClock.moment_lt_issue`).  So whatever a participant
writes is above everything that participant has seen, whoever wrote it.
-/

namespace Tandem

namespace SessionTime

instance : Std.IsLinearOrder SessionTime where
  le_refl t := UInt64.le_refl t.ms
  le_trans _ _ _ first second := UInt64.le_trans first second
  le_antisymm a b first second := by
    obtain ⟨a⟩ := a
    obtain ⟨b⟩ := b
    exact congrArg SessionTime.mk (UInt64.le_antisymm first second)
  le_total a b := UInt64.le_total a.ms b.ms

instance : Std.LawfulOrderLT SessionTime where
  lt_iff a b := by
    show a.ms < b.ms ↔ a.ms ≤ b.ms ∧ ¬ b.ms ≤ a.ms
    rw [UInt64.lt_iff_toNat_lt, UInt64.le_iff_toNat_le, UInt64.le_iff_toNat_le]
    omega

theorem zero_le (t : SessionTime) : zero ≤ t := UInt64.zero_le

/-- The later of two times is one of them, and not before either. -/
theorem latest_spec (a b : SessionTime) : a ≤ a.latest b ∧ b ≤ a.latest b ∧ (a.latest b = a ∨ a.latest b = b) := by
  unfold latest
  split
  · exact ⟨‹_›, Std.le_refl b, Or.inr rfl⟩
  · exact ⟨Std.le_refl a, Std.le_of_not_ge ‹_›, Or.inl rfl⟩

theorem le_latest_left (a b : SessionTime) : a ≤ a.latest b := (latest_spec a b).1

theorem le_latest_right (a b : SessionTime) : b ≤ a.latest b := (latest_spec a b).2.1

theorem latest_le {a b c : SessionTime} (left : a ≤ c) (right : b ≤ c) : a.latest b ≤ c := by
  rcases (latest_spec a b).2.2 with same | same <;> rwa [same]

end SessionTime

theorem Writer.rank_lt (w : Writer) : w.rank < 2 * 0x10000000000000000 := by
  cases w with
  | scenario => decide
  | participant p =>
    have := p.id.toNat_lt
    show p.id.toNat + 1 < 2 * 0x10000000000000000
    omega

theorem Writer.rank_injective {v w : Writer} (h : v.rank = w.rank) : v = w := by
  cases v with
  | scenario =>
    cases w with
    | scenario => rfl
    | participant q => exact absurd h (Nat.succ_ne_zero _).symm
  | participant p =>
    cases w with
    | scenario => exact absurd h (Nat.succ_ne_zero _)
    | participant q =>
      obtain ⟨p⟩ := p
      obtain ⟨q⟩ := q
      have same : p = q := UInt64.toNat_inj.mp (Nat.succ.inj h)
      rw [same]

namespace Stamp

/-- Time and counter as one number. -/
def moment (s : Stamp) : Nat := s.time.ms.toNat * 0x100000000 + s.counter.toNat

/-- The place of a stamp among all stamps. -/
def weight (s : Stamp) : Nat := s.moment * (2 * 0x10000000000000000) + s.writer.rank

theorem time_eq_iff {a b : Stamp} : a.time = b.time ↔ a.time.ms.toNat = b.time.ms.toNat := by
  obtain ⟨⟨s⟩, _, _⟩ := a
  obtain ⟨⟨t⟩, _, _⟩ := b
  simp only [SessionTime.mk.injEq, UInt64.toNat_inj]

/-- A stamp is below another one exactly if its place is. -/
theorem lt_iff {a b : Stamp} : a < b ↔ a.weight < b.weight := by
  have counterA := a.counter.toNat_lt
  have counterB := b.counter.toNat_lt
  have rankA := a.writer.rank_lt
  have rankB := b.writer.rank_lt
  show (a.time.ms < b.time.ms ∨ a.time = b.time ∧
    (a.counter < b.counter ∨ a.counter = b.counter ∧ a.writer.rank < b.writer.rank)) ↔ _
  rw [time_eq_iff, UInt64.lt_iff_toNat_lt, UInt32.lt_iff_toNat_lt, ← UInt32.toNat_inj, weight, weight, moment,
    moment]
  omega

theorem le_iff {a b : Stamp} : a ≤ b ↔ a.weight ≤ b.weight := by
  show ¬ b < a ↔ _
  rw [lt_iff, Nat.not_lt]

/-- Different stamps have different places. -/
theorem weight_injective {a b : Stamp} (h : a.weight = b.weight) : a = b := by
  have counterA := a.counter.toNat_lt
  have counterB := b.counter.toNat_lt
  have rankA := a.writer.rank_lt
  have rankB := b.writer.rank_lt
  rw [weight, weight, moment, moment] at h
  have time : a.time = b.time := time_eq_iff.mpr (by omega)
  have counter : a.counter = b.counter := UInt32.toNat_inj.mp (by omega)
  have writer : a.writer = b.writer := Writer.rank_injective (by omega)
  obtain ⟨_, _, _⟩ := a
  obtain ⟨_, _, _⟩ := b
  cases time
  cases counter
  cases writer
  rfl

instance : Std.IsLinearOrder Stamp where
  le_refl _ := le_iff.mpr (Nat.le_refl _)
  le_trans _ _ _ first second := le_iff.mpr (Nat.le_trans (le_iff.mp first) (le_iff.mp second))
  le_antisymm _ _ first second := weight_injective (Nat.le_antisymm (le_iff.mp first) (le_iff.mp second))
  le_total _ _ := (Nat.le_total _ _).imp le_iff.mpr le_iff.mpr

instance : Std.LawfulOrderLT Stamp where
  lt_iff a b := by
    rw [lt_iff, le_iff, le_iff]
    omega

/-- An earlier moment makes a lower stamp, whoever the writers are. -/
theorem lt_of_moment_lt {a b : Stamp} (h : a.moment < b.moment) : a < b := by
  have rankA := a.writer.rank_lt
  rw [lt_iff, weight, weight]
  omega

end Stamp

namespace StampClock

/-- The latest moment that a source has issued or seen. -/
def moment (c : StampClock) : Nat := c.last.ms.toNat * 0x100000000 + c.counter.toNat

/-- Taking note of a stamp: the source is not behind it, nor behind where it was. -/
theorem moment_observe (c : StampClock) (s : Stamp) :
    c.moment ≤ (c.observe s).moment ∧ s.moment ≤ (c.observe s).moment := by
  have counterC := c.counter.toNat_lt
  have counterS := s.counter.toNat_lt
  unfold observe
  by_cases later : c.last < s.time
  · rw [if_pos later]
    have := UInt64.lt_iff_toNat_lt.mp later
    simp only [moment, Stamp.moment]
    omega
  · rw [if_neg later]
    have notLater := UInt64.le_iff_toNat_le.mp (UInt64.not_lt.mp later)
    by_cases higher : s.time = c.last ∧ c.counter < s.counter
    · rw [if_pos higher]
      have := UInt32.lt_iff_toNat_lt.mp higher.2
      simp only [moment, Stamp.moment, higher.1]
      omega
    · rw [if_neg higher]
      simp only [moment, Stamp.moment]
      refine ⟨Nat.le_refl _, ?_⟩
      by_cases sameTime : s.time = c.last
      · have := UInt32.le_iff_toNat_le.mp (UInt32.not_lt.mp fun h => higher ⟨sameTime, h⟩)
        rw [sameTime]
        omega
      · have : s.time.ms.toNat ≠ c.last.ms.toNat := by
          intro same
          obtain ⟨⟨t⟩, _, _⟩ := s
          obtain ⟨_, ⟨l⟩, _⟩ := c
          exact sameTime (congrArg SessionTime.mk (UInt64.toNat_inj.mp same))
        omega

@[simp] theorem writer_observe (c : StampClock) (s : Stamp) : (c.observe s).writer = c.writer := by
  unfold observe
  split
  · rfl
  · split <;> rfl

/-- Taking note of a stamp, a source is at no earlier time than the stamp, nor than where it was. -/
theorem last_observe (c : StampClock) (s : Stamp) : c.last ≤ (c.observe s).last ∧ s.time ≤ (c.observe s).last := by
  unfold observe
  by_cases later : c.last < s.time
  · rw [if_pos later]
    exact ⟨Std.le_of_lt later, Std.le_refl _⟩
  · rw [if_neg later]
    have notLater : s.time ≤ c.last := Std.not_lt.mp later
    split
    · exact ⟨Std.le_refl _, notLater⟩
    · exact ⟨Std.le_refl _, notLater⟩

/-- What a source issues has the time at which the source is then, and that is not before any time it has known. -/
theorem last_issue (c : StampClock) (now : SessionTime) : (c.issue now).1.time = (c.issue now).2.last ∧
    c.last ≤ (c.issue now).2.last ∧ now ≤ (c.issue now).2.last := by
  refine ⟨rfl, ?_⟩
  unfold issue
  by_cases later : c.last < now
  · rw [if_pos later]
    exact ⟨Std.le_of_lt later, Std.le_refl _⟩
  · rw [if_neg later]
    exact ⟨Std.le_refl _, Std.not_lt.mp later⟩

/-- Whether the counter of a source has room for another stamp. -/
def HasRoom (c : StampClock) : Prop := c.counter.toNat + 1 < UInt32.size

instance (c : StampClock) : Decidable c.HasRoom := inferInstanceAs (Decidable (_ < _))

/-- What a source issues is ahead of all that it has issued or seen, and the source is where its stamp is. -/
theorem moment_issue {c : StampClock} (room : c.HasRoom) (now : SessionTime) :
    c.moment < (c.issue now).1.moment ∧ (c.issue now).2.moment = (c.issue now).1.moment := by
  have counterC := c.counter.toNat_lt
  refine ⟨?_, rfl⟩
  unfold issue
  by_cases later : c.last < now
  · rw [if_pos later]
    have := UInt64.lt_iff_toNat_lt.mp later
    simp only [moment, Stamp.moment]
    omega
  · rw [if_neg later]
    have next : (nextCounter c.counter).toNat = c.counter.toNat + 1 := by
      rw [nextCounter, if_pos (show c.counter.toNat + 1 < UInt32.size from room), UInt32.toNat_add]
      exact Nat.mod_eq_of_lt room
    simp only [moment, Stamp.moment, next]
    omega

@[simp] theorem writer_issue (c : StampClock) (now : SessionTime) :
    (c.issue now).1.writer = .participant c.writer ∧ (c.issue now).2.writer = c.writer := by
  unfold issue
  split <;> exact ⟨rfl, rfl⟩

end StampClock

end Tandem
