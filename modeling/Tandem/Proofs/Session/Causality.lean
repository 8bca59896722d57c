import Tandem.Proofs.Session.Stamps
/-!
# Stamps respect causality

The stamps that a source has issued and those that it has seen are its history.  What it issues is to be above all of
it, so that a write wins over everything that its author knew of, and so that an input that comes a second time can be
told by its stamp.

Of its history a source keeps the latest moment (`StampClock.Remembers`).  It goes beyond that moment if the session time
has, and otherwise by counting, as long as its counter has room.  Where the counter has come to its end the source stays
where it is: what it issues then is above a known stamp of that moment exactly if its writer is.  So the stamps that
stand in the way can be told from the history alone (`Stamp.Blocks`), and a run respects causality exactly if none of
them is known when a stamp is issued (`StampClock.causal_iff`).
-/

namespace Tandem

namespace Stamp

theorem time_le_of_moment_le {a b : Stamp} (h : a.moment ≤ b.moment) : a.time ≤ b.time := by
  have counterA := a.counter.toNat_lt
  have counterB := b.counter.toNat_lt
  rw [moment, moment] at h
  rw [SessionTime.le_iff]
  omega

theorem moment_eq_iff {a b : Stamp} : a.moment = b.moment ↔ a.time = b.time ∧ a.counter = b.counter := by
  have counterA := a.counter.toNat_lt
  have counterB := b.counter.toNat_lt
  rw [time_eq_iff, ← UInt32.toNat_inj, moment, moment]
  omega

/-- Of two stamps of which the first is at no later moment, it is below the other exactly if its moment or its writer
is. -/
theorem lt_iff_of_moment_le {a b : Stamp} (h : a.moment ≤ b.moment) :
    a < b ↔ a.moment < b.moment ∨ a.writer.rank < b.writer.rank := by
  have rankA := a.writer.rank_lt
  have rankB := b.writer.rank_lt
  rw [lt_iff, weight, weight]
  omega

/-- A known stamp stands in the way of what a participant issues: no known stamp is later, the session time has not gone
beyond it, its counter is at its end, and its writer is not below the participant. -/
structure Blocks (s : Stamp) (known : List Stamp) (me : ParticipantId) (now : SessionTime) : Prop where
  latest : ∀ k ∈ known, k.time ≤ s.time
  present : now ≤ s.time
  full : UInt32.size ≤ s.counter.toNat + 1
  writer : (Writer.participant me).rank ≤ s.writer.rank

theorem Blocks.moment_le {s k : Stamp} {known : List Stamp} {me : ParticipantId} {now : SessionTime}
    (h : s.Blocks known me now) (knows : k ∈ known) : k.moment ≤ s.moment := by
  have time := SessionTime.le_iff.mp (h.latest k knows)
  have counter := k.counter.toNat_lt
  have full := h.full
  have size : UInt32.size = 0x100000000 := rfl
  rw [moment, moment]
  omega

end Stamp

/-- What can happen to a stamp source. -/
inductive StampEvent where
  /-- It takes note of a stamp. -/
  | observe (s : Stamp)
  /-- It issues a stamp at a session time, which need not be later than the one before. -/
  | issue (now : SessionTime)
deriving DecidableEq

namespace StampClock

/-- The source after an event. -/
def perform (c : StampClock) : StampEvent → StampClock
  | .observe s => c.observe s
  | .issue now => (c.issue now).2

/-- The source after several events. -/
def performAll (c : StampClock) (events : List StampEvent) : StampClock := events.foldl perform c

/-- The stamp that an event makes known: the one that is seen or issued. -/
def learns (c : StampClock) : StampEvent → Stamp
  | .observe s => s
  | .issue now => (c.issue now).1

/-- The history of a source: what it has issued or seen in a run, in order. -/
def history (c : StampClock) : List StampEvent → List Stamp
  | [] => []
  | e :: rest => c.learns e :: (c.perform e).history rest

/-- Every stamp that a participant issues in a run is above every stamp issued or seen before it. -/
def Causal (me : ParticipantId) (events : List StampEvent) : Prop :=
  ∀ n now, events[n]? = some (.issue now) →
    ∀ s ∈ (new me).history (events.take n), s < (((new me).performAll (events.take n)).issue now).1

/-! ## What a source remembers -/

/-- The stamp at which a source stands. -/
def here (c : StampClock) : Stamp := ⟨c.last, c.counter, .participant c.writer⟩

@[simp] theorem moment_new (me : ParticipantId) : (new me).moment = 0 := by
  simp [moment, new, SessionTime.zero]

/-- The source stands at the latest moment of what is known, or at the very beginning. -/
structure Remembers (c : StampClock) (known : List Stamp) : Prop where
  bound : ∀ s ∈ known, s.moment ≤ c.moment
  attained : known = [] ∨ ∃ s ∈ known, s.moment = c.moment

/-- A source that takes note of a stamp stands at the later one of the two moments. -/
theorem moment_observe_eq (c : StampClock) (s : Stamp) : (c.observe s).moment = max c.moment s.moment := by
  have bounds := c.moment_observe s
  have one : (c.observe s).moment = c.moment ∨ (c.observe s).moment = s.moment := by
    unfold observe
    split
    · exact Or.inr rfl
    · split
      · rename_i later
        refine Or.inr ?_
        rw [moment, Stamp.moment, later.1]
      · exact Or.inl rfl
  omega

/-- What a source issues is not before the moment at which it stands, and it is ahead of it unless the counter has come
to its end at a time that the session has not gone beyond; then the source stays where it is. -/
theorem issue_cases (c : StampClock) (now : SessionTime) :
    ((c.last < now ∨ c.HasRoom) ∧ c.moment < (c.issue now).1.moment) ∨
      (now ≤ c.last ∧ ¬ c.HasRoom ∧ (c.issue now).1 = c.here) := by
  by_cases room : c.HasRoom
  · exact Or.inl ⟨Or.inr room, (moment_issue room now).1⟩
  · by_cases later : c.last < now
    · refine Or.inl ⟨Or.inl later, ?_⟩
      have counter := c.counter.toNat_lt
      have := UInt64.lt_iff_toNat_lt.mp later
      unfold issue
      rw [if_pos later]
      simp only [moment, Stamp.moment]
      omega
    · refine Or.inr ⟨Std.not_lt.mp later, room, ?_⟩
      unfold issue
      rw [if_neg later]
      have stays : nextCounter c.counter = c.counter := if_neg room
      simp only [stays, here]

theorem moment_le_issue (c : StampClock) (now : SessionTime) : c.moment ≤ (c.issue now).1.moment := by
  rcases c.issue_cases now with ⟨-, ahead⟩ | ⟨-, -, same⟩
  · exact Nat.le_of_lt ahead
  · rw [same]
    exact Nat.le_refl _

@[simp] theorem writer_perform (c : StampClock) (e : StampEvent) : (c.perform e).writer = c.writer := by
  cases e with
  | observe s => exact c.writer_observe s
  | issue now => exact (c.writer_issue now).2

/-- After an event the source stands at the later moment of where it stood and what it has learnt. -/
theorem moment_perform (c : StampClock) (e : StampEvent) :
    (c.perform e).moment = max c.moment (c.learns e).moment := by
  cases e with
  | observe s => exact c.moment_observe_eq s
  | issue now => exact (Nat.max_eq_right (c.moment_le_issue now)).symm

namespace Remembers

variable {c : StampClock} {known : List Stamp}

theorem new (me : ParticipantId) : (new me).Remembers [] := ⟨fun _ mem => absurd mem List.not_mem_nil, Or.inl rfl⟩

/-- **An event is remembered**: a fresh source stands at the first moment of all, so the first stamp is not before it. -/
theorem perform (h : c.Remembers known) (fresh : known = [] → c.moment = 0) (e : StampEvent) :
    (c.perform e).Remembers (known ++ [c.learns e]) := by
  have after := c.moment_perform e
  constructor
  · intro s mem
    rcases List.mem_append.mp mem with old | new
    · have := h.bound s old
      omega
    · rw [List.mem_singleton.mp new]
      omega
  · right
    have last : c.learns e ∈ known ++ [c.learns e] := List.mem_append_right _ (List.mem_singleton_self _)
    by_cases ahead : c.moment ≤ (c.learns e).moment
    · exact ⟨_, last, by omega⟩
    · rcases h.attained with none | ⟨s, mem, same⟩
      · have := fresh none
        omega
      · exact ⟨s, List.mem_append_left _ mem, by omega⟩

/-- What is remembered through a run, from a source that has known something before, or that is new. -/
theorem performAll (h : c.Remembers known) (fresh : known = [] → c.moment = 0) (events : List StampEvent) :
    (c.performAll events).Remembers (known ++ c.history events) ∧ (c.performAll events).writer = c.writer := by
  induction events generalizing c known with
  | nil => exact ⟨(List.append_nil known).symm ▸ h, rfl⟩
  | cons e rest ih =>
    have next := h.perform fresh e
    obtain ⟨after, writer⟩ := ih next fun none => absurd none (by simp)
    rw [List.append_assoc] at after
    exact ⟨after, writer.trans (c.writer_perform e)⟩

/-- A stamp that stands in the way is at the very moment at which the source stands. -/
theorem here_of_blocks (h : c.Remembers known) {s : Stamp} (mem : s ∈ known) {now : SessionTime}
    (blocks : s.Blocks known c.writer now) : s.time = c.last ∧ s.counter = c.counter := by
  rcases h.attained with none | ⟨k, knows, level⟩
  · rw [none] at mem
    exact absurd mem List.not_mem_nil
  · have reached : k.moment ≤ s.moment := blocks.moment_le knows
    have bound : s.moment ≤ c.here.moment := h.bound s mem
    have level : k.moment = c.here.moment := level
    have same : s.moment = c.here.moment := by omega
    exact Stamp.moment_eq_iff.mp same

/-- **What is issued is above everything known** exactly if no known stamp stands in the way. -/
theorem lt_issue_iff (h : c.Remembers known) (now : SessionTime) :
    (∀ s ∈ known, s < (c.issue now).1) ↔ ∀ s ∈ known, ¬ s.Blocks known c.writer now := by
  rcases c.issue_cases now with ⟨free, ahead⟩ | ⟨past, ended, same⟩
  · refine iff_of_true (fun s mem => ?_) fun s mem blocks => ?_
    · exact Stamp.lt_of_moment_lt (Nat.lt_of_le_of_lt (h.bound s mem) ahead)
    · obtain ⟨time, counter⟩ := h.here_of_blocks mem blocks
      rcases free with later | room
      · exact absurd (time ▸ blocks.present) (Std.not_le.mpr later)
      · exact absurd (counter ▸ blocks.full) (Nat.not_le.mpr room)
  · -- The source issues the stamp at which it stands, so among known stamps of that moment the writers decide.
    rw [same]
    refine forall_congr' fun s => forall_congr' fun mem => ?_
    have bound : s.moment ≤ c.here.moment := h.bound s mem
    rw [Stamp.lt_iff_of_moment_le bound]
    constructor
    · intro below blocks
      have top : s.moment = c.here.moment := Stamp.moment_eq_iff.mpr (h.here_of_blocks mem blocks)
      have writer : c.here.writer.rank ≤ s.writer.rank := blocks.writer
      omega
    · intro unblocked
      refine Decidable.byContradiction fun above => unblocked ?_
      have top : s.moment = c.here.moment := by omega
      obtain ⟨time, counter⟩ : s.time = c.last ∧ s.counter = c.counter := Stamp.moment_eq_iff.mp top
      refine ⟨fun k knows => ?_, ?_, ?_, ?_⟩
      · have bound : k.moment ≤ c.here.moment := h.bound k knows
        exact Stamp.time_le_of_moment_le (Nat.le_trans bound (Nat.le_of_eq top.symm))
      · rw [time]
        exact past
      · rw [counter]
        exact Nat.not_lt.mp ended
      · show c.here.writer.rank ≤ s.writer.rank
        omega

end Remembers

/-- **When stamps respect causality.**  In any run of a participant's source, each stamp that is issued is above every
stamp issued or seen before it, exactly if no stamp that is known at that point stands in its way. -/
theorem causal_iff (me : ParticipantId) (events : List StampEvent) :
    Causal me events ↔ ∀ n now, events[n]? = some (.issue now) →
      ∀ s ∈ (new me).history (events.take n), ¬ s.Blocks ((new me).history (events.take n)) me now := by
  refine forall_congr' fun n => forall_congr' fun now => forall_congr' fun _ => ?_
  obtain ⟨remembers, writer⟩ := (Remembers.new me).performAll (fun _ => moment_new me) (events.take n)
  have above := remembers.lt_issue_iff now
  rwa [List.nil_append, writer] at above

/-- A stamp of another participant whose counter is at its end, and an own stamp while the session time is behind it. -/
theorem not_causal_fullCounter :
    ¬ Causal ⟨1⟩ [.observe ⟨⟨1000⟩, 4294967295, .participant ⟨2⟩⟩, .issue ⟨500⟩] := by
  intro causal
  have above := causal 1 ⟨500⟩ rfl _ List.mem_cons_self
  exact absurd above (by decide)

end StampClock

end Tandem
