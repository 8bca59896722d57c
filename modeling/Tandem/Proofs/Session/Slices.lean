import Mathlib.Algebra.GroupWithZero.Nat
import Tandem.Session.Clock
/-!
# Time that passes in slices

A clock is told of the time that has passed in slices, one after the other, as often as its peer takes a step.  It would
show the same however the time is sliced if nothing were lost.  But of each slice it counts the whole milliseconds only
(`SessionClock.now_advanceAll`), and what is beyond them is gone before the next slice comes.  At the other end of the
range, a stretch of `2 ^ 64` milliseconds or more does not bring the clock to its limit: of its milliseconds only the
low 64 bits count.

`SessionClock.slicesAlike_iff` says for which slices neither matters.
-/

namespace Tandem

namespace Duration

/-- The time that slices come to. -/
def total (slices : List Duration) : Duration := slices.foldr (· + ·) zero

/-- What the slices have beyond their whole milliseconds, in nanoseconds. -/
def leftover (slices : List Duration) : Nat := (slices.map (fun d => d.nanos % millisecond)).sum

/-- The milliseconds that slices count for one by one. -/
def counted (slices : List Duration) : Nat := (slices.map SessionTime.span).sum

/-- The total is made of the whole milliseconds of the slices and of what is left over. -/
theorem nanos_total (slices : List Duration) :
    (total slices).nanos = (slices.map wholeMillis).sum * millisecond + leftover slices := by
  induction slices with
  | nil => rfl
  | cons d rest ih =>
    have parts := Nat.div_add_mod' d.nanos millisecond
    have first : (total (d :: rest)).nanos = d.nanos + (total rest).nanos := rfl
    simp only [leftover, List.map_cons, List.sum_cons, wholeMillis, Nat.add_mul] at ih ⊢
    omega

theorem wholeMillis_total (slices : List Duration) :
    (total slices).wholeMillis = (slices.map wholeMillis).sum + leftover slices / millisecond := by
  rw [wholeMillis, nanos_total, Nat.mul_comm, Nat.mul_add_div (by decide)]

/-- Slices count for no more than their whole milliseconds, and for all of these if they have 64 bits. -/
theorem counted_spec (slices : List Duration) : counted slices ≤ (slices.map wholeMillis).sum ∧
    ((slices.map wholeMillis).sum < UInt64.size → counted slices = (slices.map wholeMillis).sum) := by
  induction slices with
  | nil => exact ⟨Nat.le_refl 0, fun _ => rfl⟩
  | cons d rest ih =>
    obtain ⟨upTo, all⟩ := ih
    have size : UInt64.size = 2 ^ 64 := rfl
    simp only [counted, List.map_cons, List.sum_cons, SessionTime.span, size] at upTo all ⊢
    omega

end Duration

namespace SessionTime

theorem ofNat_eq_iff {m n : Nat} : ofNat m = ofNat n ↔ min m limit = min n limit := by
  rw [← toNat_ofNat, ← toNat_ofNat, UInt64.toNat_inj, SessionTime.mk.injEq]

/-- The cut at the limit may wait until everything has been added. -/
theorem ofNat_add (m n : Nat) : ofNat ((ofNat m).ms.toNat + n) = ofNat (m + n) := by
  rw [toNat_ofNat, ofNat_eq_iff]
  omega

end SessionTime

namespace SessionClock

variable {c : SessionClock}

/-- Lets slices of time pass, one after the other. -/
def advanceAll (c : SessionClock) (slices : List Duration) : SessionClock := slices.foldl advance c

/-- Time that passes does not stop a clock. -/
theorem isRunning_advance (c : SessionClock) (dt : Duration) : (c.advance dt).isRunning = c.isRunning := by
  unfold advance
  split <;> rfl

/-- Time that passes moves a running clock by the milliseconds that it counts for. -/
theorem now_advance (running : c.isRunning = true) (dt : Duration) :
    (c.advance dt).now = .ofNat (c.now.ms.toNat + SessionTime.span dt) := by
  unfold advance
  rw [if_pos running]
  rfl

/-- **What slices come to**: each counts for its own milliseconds, and nothing is kept of what is beyond them. -/
theorem now_advanceAll (running : c.isRunning = true) (slices : List Duration) :
    (c.advanceAll slices).now = .ofNat (c.now.ms.toNat + Duration.counted slices) := by
  induction slices generalizing c with
  | nil =>
    have upTo : c.now.ms.toNat ≤ SessionTime.limit := Nat.le_of_lt_succ c.now.ms.toNat_lt
    have stays : min c.now.ms.toNat SessionTime.limit = c.now.ms.toNat := Nat.min_eq_left upTo
    rw [SessionTime.ofNat, Duration.counted, List.map_nil, List.sum_nil, Nat.add_zero, stays, UInt64.ofNat_toNat]
    rfl
  | cons d rest ih =>
    have goes : (c.advance d).isRunning = true := (c.isRunning_advance d).trans running
    show ((c.advance d).advanceAll rest).now = _
    rw [ih goes, now_advance running, SessionTime.ofNat_add, Nat.add_assoc]
    rfl

/-- Whether it does not matter that time comes in slices: the clock shows the same as if the total had passed at once,
and that is the time before with the whole milliseconds of the total, up to the limit. -/
def SlicesAlike (c : SessionClock) (slices : List Duration) : Prop :=
  (c.advanceAll slices).now = (c.advance (.total slices)).now ∧
    (c.advance (.total slices)).now = .ofNat (c.now.ms.toNat + (Duration.total slices).wholeMillis)

/-- **When slices do not matter**: if the total has less than `2 ^ 64` milliseconds and what the slices have beyond
their whole milliseconds does not come to a millisecond, or if the clock comes to its limit in any case. -/
theorem slicesAlike_iff (running : c.isRunning = true) (slices : List Duration) :
    c.SlicesAlike slices ↔
      (Duration.leftover slices < Duration.millisecond ∧ (Duration.total slices).wholeMillis < UInt64.size) ∨
        SessionTime.limit ≤
          c.now.ms.toNat + min (Duration.counted slices) (SessionTime.span (.total slices)) := by
  have whole := Duration.wholeMillis_total slices
  obtain ⟨upTo, all⟩ := Duration.counted_spec slices
  have once : SessionTime.span (.total slices) = (Duration.total slices).wholeMillis % UInt64.size := rfl
  have size : UInt64.size = 2 ^ 64 := rfl
  have limit : SessionTime.limit = 2 ^ 64 - 1 := rfl
  have unit : Duration.millisecond = 1000000 := rfl
  unfold SlicesAlike
  rw [now_advanceAll running, now_advance running, SessionTime.ofNat_eq_iff, SessionTime.ofNat_eq_iff]
  rw [size] at all once ⊢
  rw [unit] at whole ⊢
  omega

/-- A clock that has just been started, and time in uneven slices that leave nothing over. -/
theorem slicesAlike_iff_uneven : new.start.isRunning = true ∧
    new.start.SlicesAlike [⟨1500250⟩, ⟨2000300⟩, .ofMillis 7] := by
  have running : new.start.isRunning = true := rfl
  exact ⟨running, (slicesAlike_iff running _).mpr (Or.inl ⟨by decide, by decide⟩)⟩

/-- Two slices of half a millisecond leave the clock where it is, and so does a single slice of `2 ^ 64`
milliseconds. -/
theorem not_slicesAlike_halves : ¬ new.start.SlicesAlike [⟨500000⟩, ⟨500000⟩] ∧
    ¬ new.start.SlicesAlike [.ofMillis UInt64.size] := by
  constructor
  · exact fun alike => absurd alike.1 (by decide +kernel)
  · exact fun alike => absurd alike.2 (by decide +kernel)

end SessionClock

end Tandem
