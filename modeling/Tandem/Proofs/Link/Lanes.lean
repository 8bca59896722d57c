import Tandem.Proofs.Link.Voices
/-!
# Heartbeats that do not overtake

A *lane* is one direction of a connection: a voice, what it has put on the way, and the end that receives.  The
question is what the receiver may conclude from a heartbeat: that everything said before it has arrived, so that what
is still missing is stamped no earlier than the heartbeat.

That holds on a lane on which no heartbeat is ready to be sent before the sender has taken the hello of the other end
on the connection, for the hello makes the sender queue everything that the other end lacks, and later heartbeats are
behind that.  `Lane.Fair` is what holds at any time; there is one lemma for each thing that can happen.

`settle` says how far a receiver gets with the numbers on the way: only the next number counts, and any other one is a
repetition or comes too early.
-/

namespace Tandem

open Link

/-! ## How far one gets -/

/-- How far one gets with numbers when everything up to `t` has been taken and only the next number counts. -/
def settle (t : Nat) (numbers : List Nat) : Nat := numbers.foldl (fun t n => if n = t + 1 then n else t) t

section settle

variable {t t' n k : Nat} {l : List Nat}

theorem settle_append (t : Nat) (l l' : List Nat) : settle t (l ++ l') = settle (settle t l) l' := List.foldl_append

theorem le_settle (t : Nat) (l : List Nat) : t ≤ settle t l := by
  induction l generalizing t with
  | nil => exact Nat.le_refl t
  | cons n rest ih =>
    refine Nat.le_trans ?_ (ih _)
    dsimp only
    split <;> omega

theorem settle_mono (le : t ≤ t') : settle t l ≤ settle t' l := by
  induction l generalizing t t' with
  | nil => exact le
  | cons n rest ih =>
    refine ih ?_
    dsimp only
    split <;> split <;> omega

/-- Consecutive numbers are all taken when the first one is not too high. -/
theorem le_settle_range' (le : n ≤ t) : n + k ≤ settle t (List.range' (n + 1) k) := by
  induction k generalizing n t with
  | zero => exact le
  | succ k ih =>
    rw [List.range'_succ, ← Nat.succ_add_eq_add_succ]
    refine ih ?_
    dsimp only
    split <;> omega

end settle

/-! ## What is stamped late enough -/

/-- After the first `k` messages nothing is stamped before a time. -/
def After (said : List SyncMessage) (k : Nat) (t : SessionTime) : Prop := ∀ m ∈ said.drop k, m.NotBefore t

/-- Each heartbeat on the way comes when everything stamped before it has been taken. -/
def Rides (said : List SyncMessage) : Nat → List Frame → Prop
  | _, [] => True
  | k, f :: rest => (∀ t, f.beat? = some t → After said k t) ∧ Rides said (settle k (Frame.numbers [f])) rest

section Rides

variable {said : List SyncMessage} {k k' : Nat} {t : SessionTime} {l l' : List Frame}

theorem After.mono (h : After said k t) (le : k ≤ k') : After said k' t :=
  fun m mem => h m ((List.drop_sublist_drop_left said le).subset mem)

/-- When everything has been taken, nothing is missing. -/
theorem after_of_length_le (le : said.length ≤ k) : After said k t := by
  intro m mem
  rw [List.drop_eq_nil_of_le le] at mem
  exact absurd mem List.not_mem_nil

theorem After.more (h : After said k t) {m : SyncMessage} (fresh : m.NotBefore t) : After (said ++ [m]) k t := by
  intro m' mem
  rw [List.drop_append, List.mem_append] at mem
  rcases mem with old | new
  · exact h m' old
  · rw [List.mem_singleton.mp (List.mem_of_mem_drop new)]
    exact fresh

theorem Rides.mono (h : Rides said k l) (le : k ≤ k') : Rides said k' l := by
  induction l generalizing k k' with
  | nil => trivial
  | cons f rest ih => exact ⟨fun t beat => (h.1 t beat).mono le, ih h.2 (settle_mono le)⟩

theorem rides_append : Rides said k (l ++ l') ↔ Rides said k l ∧ Rides said (settle k (Frame.numbers l)) l' := by
  induction l generalizing k with
  | nil => exact ⟨fun h => ⟨trivial, h⟩, And.right⟩
  | cons f rest ih =>
    have numbers : Frame.numbers (f :: rest) = Frame.numbers [f] ++ Frame.numbers rest := Frame.numbers_append [f] rest
    rw [numbers, settle_append]
    have more := ih (k := settle k (Frame.numbers [f]))
    exact ⟨fun h => ⟨⟨h.1, (more.mp h.2).1⟩, (more.mp h.2).2⟩, fun h => ⟨h.1.1, more.mpr ⟨h.1.2, h.2⟩⟩⟩

/-- Frames whose heartbeats may all come now. -/
theorem rides_of_after (h : ∀ t ∈ Frame.beats l, After said k t) : Rides said k l := by
  induction l generalizing k with
  | nil => trivial
  | cons f rest ih =>
    constructor
    · intro t beat
      exact h t (Frame.mem_beats.mpr ⟨f, List.mem_cons_self, beat⟩)
    · refine ih fun t mem => ?_
      obtain ⟨g, there, beat⟩ := Frame.mem_beats.mp mem
      exact (h t (Frame.mem_beats.mpr ⟨g, List.mem_cons_of_mem f there, beat⟩)).mono (le_settle _ _)

theorem Rides.more (h : Rides said k l) {m : SyncMessage} (fresh : ∀ t ∈ Frame.beats l, m.NotBefore t) :
    Rides (said ++ [m]) k l := by
  induction l generalizing k with
  | nil => trivial
  | cons f rest ih =>
    constructor
    · intro t beat
      exact (h.1 t beat).more (fresh t (Frame.mem_beats.mpr ⟨f, List.mem_cons_self, beat⟩))
    · refine ih h.2 fun t mem => ?_
      obtain ⟨g, there, beat⟩ := Frame.mem_beats.mp mem
      exact fresh t (Frame.mem_beats.mpr ⟨g, List.mem_cons_of_mem f there, beat⟩)

end Rides

/-! ## Lanes -/

/-- One direction of a connection. -/
structure Lane where
  voice : Voice
  /-- Whether the sender has been told of the connection that there is. -/
  joined : Bool
  /-- Whether it has taken a hello of the other end on that connection. -/
  greeted : Bool
  /-- The frames on the way, in the order of sending. -/
  wire : List Frame
  ear : LinkEnd

namespace Lane

/-- No heartbeat is ready to be sent before the hello of the other end has been taken. -/
def Patient (l : Lane) : Prop := l.joined = true → l.greeted = false → l.voice.beats = []

/-- What holds of the two ends of a lane, whatever is on the way. -/
structure Grounded (session : SessionId) (l : Lane) : Prop where
  coherent : l.voice.record.Coherent
  flow : LinkEnd.Flow l.voice.record l.ear
  readable : l.voice.record.Signed session (fun _ => True) (fun _ => True)
  orderly : l.voice.Orderly
  onWay : l.wire ⊆ l.voice.record.drained
  connected : l.joined = true → l.voice.record.link.state ≠ .closed → l.voice.record.link.bond.connected = true
  fewer : l.voice.record.numbered.length + 1 < UInt64.size

/-- What holds of a lane on which heartbeats do not overtake. -/
structure Fair (l : Lane) : Prop where
  talks : l.greeted = true → l.voice.record.link.bond.remote.isSome = true ∧ 1 ≤ l.voice.record.link.state.stage
  told : l.ear.link.pulse.peerTime ≤ l.voice.horizon
  heard : After l.voice.record.said l.ear.through l.ear.link.pulse.peerTime
  rides : l.ear.link.state ≠ .closed → Rides l.voice.record.said l.ear.through l.wire
  /-- Everything that has been said has arrived, is on the way or is ready to be sent. -/
  complete : l.ear.link.state ≠ .closed → l.joined = true → l.greeted = true → l.voice.record.link.state ≠ .closed →
    l.voice.record.said.length ≤ settle l.ear.through (Frame.numbers l.wire ++ l.voice.record.link.queued)
  /-- A heartbeat that is ready to be sent may come after what is on the way. -/
  ready : l.ear.link.state ≠ .closed → l.joined = true → l.greeted = true → ∀ t ∈ l.voice.beats,
    After l.voice.record.said (settle l.ear.through (Frame.numbers l.wire)) t

end Lane

/-- **A hello makes up for everything**: what is retained brings the receiver up to the last message. -/
theorem LinkEnd.complete_of_again {session : SessionId} {a b : LinkEnd}
    (queued : a.link.queued = Frame.numbers a.link.stream.retained) (coherent : a.Coherent) (flow : LinkEnd.Flow a b)
    (readable : a.Signed session (fun _ => True) (fun _ => True)) (fewer : a.numbered.length + 1 < UInt64.size)
    (l : List Nat) : a.said.length ≤ settle b.through (l ++ a.link.queued) := by
  obtain ⟨n, arrived, numbers, whole⟩ := numbers_retained coherent flow readable fewer
  rw [length_said, queued, numbers, settle_append, ← whole]
  exact le_settle_range' (Nat.le_trans arrived (le_settle _ _))

namespace Lane

variable {session : SessionId} {l : Lane} {v : Voice}

/-! ## What the sender does -/

theorem After.change {k : Nat} {t : SessionTime} (h : After l.voice.record.said k t) (changes : l.voice.Changes v)
    (past : t ≤ l.voice.horizon) : After v.record.said k t := by
  rcases changes.said with same | ⟨m, more, -, fresh⟩
  · rwa [same]
  · rw [more]
    exact h.more (fresh.mono past)

/-- Once it has taken a hello, a link that is open may send numbered frames. -/
theorem Fair.canTransmit (h : l.Fair) (ground : l.Grounded session) (joined : l.joined = true)
    (greeted : l.greeted = true) (isOpen : l.voice.record.link.state ≠ .closed) :
    l.voice.record.link.canTransmit = true :=
  Link.canTransmit_of_stage (ground.connected joined isOpen) (h.talks greeted).1 (h.talks greeted).2 isOpen

/-- Whatever becomes of the queue, it makes up for everything that has been said. -/
theorem Fair.complete_change (h : l.Fair) (ground : l.Grounded session) (changes : l.voice.Changes v)
    (after : ({ l with voice := v } : Lane).Grounded session) (ear : l.ear.link.state ≠ .closed)
    (joined : l.joined = true) (greeted : l.greeted = true) (isOpen : v.record.link.state ≠ .closed) :
    v.record.said.length ≤ settle l.ear.through (Frame.numbers l.wire ++ v.record.link.queued) := by
  have wasOpen := LinkState.isOpen_of_stage changes.stage isOpen
  have all := h.complete ear joined greeted wasOpen
  cases changes.requeues with
  | still queued same => rwa [queued, LinkEnd.said, same]
  | again queued => exact LinkEnd.complete_of_again queued after.coherent after.flow after.readable after.fewer _
  | closed closed => exact absurd closed isOpen
  | next _ queued more =>
    -- The new number is the next one after everything that has been said.
    rw [LinkEnd.length_said] at all ⊢
    rw [queued (h.canTransmit ground joined greeted wasOpen), more, ← List.append_assoc, settle_append]
    exact le_settle_range' (k := 1) all

/-- **The sender acts.** -/
theorem Fair.change (h : l.Fair) (ground : l.Grounded session) (changes : l.voice.Changes v)
    (after : ({ l with voice := v } : Lane).Grounded session) : ({ l with voice := v } : Lane).Fair where
  talks greeted := by
    show v.record.link.bond.remote.isSome = true ∧ _
    rw [changes.bond]
    exact ⟨(h.talks greeted).1, Nat.le_trans (h.talks greeted).2 changes.stage⟩
  told := Std.le_trans h.told changes.later
  heard := After.change h.heard changes h.told
  rides := by
    intro isOpen
    show Rides v.record.said _ _
    rcases changes.said with same | ⟨m, more, -, fresh⟩
    · rw [same]
      exact h.rides isOpen
    · rw [more]
      refine (h.rides isOpen).more fun t mem => fresh.mono (ground.orderly.beats t (List.mem_append_left _ ?_))
      obtain ⟨f, there, beat⟩ := Frame.mem_beats.mp mem
      exact Frame.mem_beats.mpr ⟨f, ground.onWay there, beat⟩
  complete := h.complete_change ground changes after
  ready := by
    intro ear joined greeted t mem
    rcases changes.beats t mem with old | ⟨isOpen, empty, past⟩
    · exact After.change (h.ready ear joined greeted t old) changes
        (ground.orderly.beats t (List.mem_append_right _ old))
    · -- Nothing else was ready to be sent, so everything said is on the way.
      have all := h.complete ear joined greeted isOpen
      rw [queued, empty, Frame.numbers_nil, List.append_nil] at all
      exact After.change (after_of_length_le all) changes past

/-- The sender is told of its connection, or the connection is gone; the hello of the other end has not come yet. -/
theorem Fair.unmet (h : l.Fair) {joined : Bool} {wire : List Frame} (said : v.record.said = l.voice.record.said)
    (later : l.voice.horizon ≤ v.horizon) (onWay : wire = l.wire ∨ wire = []) :
    (Lane.mk v joined false wire l.ear).Fair where
  talks never := absurd never Bool.false_ne_true
  told := Std.le_trans h.told later
  heard := by
    show After v.record.said _ _
    rw [said]
    exact h.heard
  rides isOpen := by
    show Rides v.record.said _ _
    rw [said]
    rcases onWay with rfl | rfl
    · exact h.rides isOpen
    · trivial
  complete _ _ never := absurd never Bool.false_ne_true
  ready _ _ never := absurd never Bool.false_ne_true

/-- What the sender has drained and not put on a connection is drained anew, behind everything that is on the way. -/
def transmitted (l : Lane) (now : SessionTime) : Lane :=
  { l with
    voice := { l.voice with record := l.voice.record.perform [] now .drainOutbound, finals := [] }
    wire := if l.joined then l.wire ++ (l.voice.finals ++ l.voice.record.link.drainOutbound.1) else l.wire }

/-- **The sender puts its queue on the connection.** -/
theorem Fair.transmit (h : l.Fair) (patient : l.Patient) (now : SessionTime) : (l.transmitted now).Fair := by
  have numbers : Frame.numbers l.voice.record.link.drainOutbound.1 = l.voice.record.link.queued :=
    Frame.numbers_map_restamped l.voice.record.link.receivedThrough _ l.voice.record.link.outbox.toList
  have beats : Frame.beats (l.voice.finals ++ l.voice.record.link.drainOutbound.1) = l.voice.beats := by
    rw [Frame.beats_append, (pulse_drainOutbound l.voice.record.link).2, Voice.beats]
  have none : ({ l.voice with
      record := l.voice.record.perform [] now .drainOutbound, finals := [] } : Voice).beats = [] := rfl
  unfold transmitted
  cases joined : l.joined with
  | false =>
    exact ⟨h.talks, h.told, h.heard, h.rides, fun _ never => absurd never Bool.false_ne_true,
      fun _ never => absurd never Bool.false_ne_true⟩
  | true =>
    refine ⟨h.talks, h.told, h.heard, fun ear => ?_, fun ear _ greeted isOpen => ?_, fun _ _ _ t mem => ?_⟩
    · -- Before the hello there is no heartbeat to put behind the others, and after it nothing said earlier is missing.
      refine rides_append.mpr ⟨h.rides ear, rides_of_after fun t mem => ?_⟩
      rw [beats] at mem
      cases greeted : l.greeted with
      | true => exact h.ready ear joined greeted t mem
      | false =>
        rw [patient joined greeted] at mem
        exact absurd mem List.not_mem_nil
    · -- Frames in between do not set the receiver back.
      refine Nat.le_trans (h.complete ear joined greeted isOpen) ?_
      show _ ≤ settle _ (Frame.numbers (_ ++ _) ++ [])
      rw [List.append_nil, Frame.numbers_append, Frame.numbers_append, numbers, settle_append, settle_append,
        settle_append]
      exact settle_mono (le_settle _ _)
    · rw [none] at mem
      exact absurd mem List.not_mem_nil

/-! ## What the receiver does -/

/-- The receiver acts without taking anything. -/
theorem Fair.listen (h : l.Fair) {ear : LinkEnd} (through : ear.through = l.ear.through)
    (peerTime : ear.link.pulse.peerTime = l.ear.link.pulse.peerTime)
    (stage : l.ear.link.state.stage ≤ ear.link.state.stage) : ({ l with ear := ear } : Lane).Fair := by
  have wasOpen : ear.link.state ≠ .closed → l.ear.link.state ≠ .closed := LinkState.isOpen_of_stage stage
  refine ⟨h.talks, ?_, ?_, ?_, ?_, ?_⟩
  · show ear.link.pulse.peerTime ≤ _
    rw [peerTime]
    exact h.told
  · show After _ ear.through ear.link.pulse.peerTime
    rw [through, peerTime]
    exact h.heard
  · intro isOpen
    show Rides _ ear.through _
    rw [through]
    exact h.rides (wasOpen isOpen)
  · intro isOpen
    show _ → _ → _ → _ ≤ settle ear.through _
    rw [through]
    exact h.complete (wasOpen isOpen)
  · intro isOpen
    show _ → _ → ∀ t ∈ _, After _ (settle ear.through _) t
    rw [through]
    exact h.ready (wasOpen isOpen)

/-- Only the next number takes an open link further. -/
theorem through_take {e : LinkEnd} {f : Frame} (now : SessionTime) (session : f.header.session = e.link.session)
    (isOpen : e.link.state ≠ .closed) {m : SyncMessage} (carried : f.message = .ok m)
    (fewer : e.through + 1 < UInt64.size) :
    (e.perform [f] now (.deliver 0)).through = settle e.through (Frame.numbers [f]) := by
  have same : e.link.receivedThrough.toNat = e.through := rfl
  have next : (e.link.receivedThrough + 1).toNat = e.through + 1 := by
    rw [UInt64.toNat_add]
    exact Nat.mod_eq_of_lt fewer
  show (e.link.onFrame f now).1.stream.through.toNat = _
  by_cases outside : f.seq = unsequenced
  · rw [Frame.numbers_cons_of_outside outside, Frame.numbers_nil]
    rcases (takes_onFrame e.link f now).received with ⟨through, -⟩ | ⟨-, numbered, -⟩
    · exact congrArg UInt64.toNat through
    · exact absurd outside numbered
  · rw [Frame.numbers_cons_of_numbered outside, Frame.numbers_nil,
      Link.through_onFrame now session isOpen outside carried]
    show _ = if f.seq.toNat = e.through + 1 then f.seq.toNat else e.through
    by_cases inPlace : f.seq = e.link.receivedThrough + 1
    · rw [if_pos inPlace, if_pos (by rw [inPlace, next])]
    · rw [if_neg inPlace, if_neg fun number => inPlace (UInt64.toNat_inj.mp (number.trans next.symm)), same]

/-- What the receiver needs of the frames on the way to it. -/
structure Hears (session : SessionId) (l : Lane) : Prop where
  joined : l.ear.link.session = session
  silent : ∀ f ∈ l.ear.link.stream.retained, f.beat? = none

/-- **The receiver takes the next frame.** -/
theorem Fair.arrive (h : l.Fair) (ground : l.Grounded session) (hears : l.Hears session) {f : Frame}
    {rest : List Frame} (first : l.wire = f :: rest) (now : SessionTime) :
    ({ l with wire := rest, ear := l.ear.perform [f] now (.deliver 0) } : Lane).Fair := by
  have drained : f ∈ l.voice.record.drained := ground.onWay (first ▸ List.mem_cons_self)
  by_cases closed : l.ear.link.state = .closed
  · -- A closed link is deaf.
    have deaf : (l.ear.link.onFrame f now).1 = l.ear.link := by
      unfold Link.onFrame
      split <;> rfl
    have still : (l.ear.perform [f] now (.deliver 0)) = l.ear := by
      show { l.ear with link := (l.ear.link.onFrame f now).1 } = l.ear
      rw [deaf]
    rw [still]
    exact ⟨h.talks, h.told, h.heard, fun isOpen => absurd closed isOpen, fun isOpen => absurd closed isOpen,
      fun isOpen => absurd closed isOpen⟩
  · obtain ⟨sessionOf, ⟨m, carried⟩, -⟩ := ground.readable.drained f drained
    have enough : l.ear.through ≤ l.voice.record.numbered.length := ground.flow.enough
    have through := through_take now (sessionOf.trans hears.joined.symm) closed carried
      (Nat.lt_of_le_of_lt (Nat.succ_le_succ enough) ground.fewer)
    have numbers : Frame.numbers l.wire = Frame.numbers [f] ++ Frame.numbers rest := by
      rw [first]
      exact Frame.numbers_append [f] rest
    have rides := h.rides closed
    rw [first] at rides
    have further := le_settle l.ear.through (Frame.numbers [f])
    -- The time noted stays, or a heartbeat tells one when all that was stamped before it has been taken.
    have time : l.ear.link.pulse.peerTime = (l.ear.perform [f] now (.deliver 0)).link.pulse.peerTime ∨
        ∃ t, f.beat? = some t ∧ (l.ear.perform [f] now (.deliver 0)).link.pulse.peerTime =
          l.ear.link.pulse.peerTime.latest t := by
      rcases pulse_onFrame hears.silent f now with same | ⟨t, beat, more⟩
      · exact Or.inl (congrArg LinkPulse.peerTime same).symm
      · exact Or.inr ⟨t, beat, (congrArg LinkPulse.peerTime more).trans rfl⟩
    refine ⟨h.talks, ?_, ?_, fun _ => ?_, fun _ joined greeted isOpen => ?_, fun _ joined greeted => ?_⟩
    · rcases time with same | ⟨t, beat, more⟩
      · exact same ▸ h.told
      · show (l.ear.perform [f] now (.deliver 0)).link.pulse.peerTime ≤ _
        rw [more]
        refine SessionTime.latest_le h.told (ground.orderly.beats t (List.mem_append_left _ ?_))
        exact Frame.mem_beats.mpr ⟨f, drained, beat⟩
    · show After _ (l.ear.perform [f] now (.deliver 0)).through _
      rw [through]
      rcases time with same | ⟨t, beat, more⟩
      · exact same ▸ h.heard.mono further
      · rw [more]
        rcases (SessionTime.latest_spec l.ear.link.pulse.peerTime t).2.2 with old | new
        · rw [old]
          exact h.heard.mono further
        · rw [new]
          exact (rides.1 t beat).mono further
    · show Rides _ (l.ear.perform [f] now (.deliver 0)).through _
      rw [through]
      exact rides.2
    · have all := h.complete closed joined greeted isOpen
      rw [numbers, List.append_assoc, settle_append, ← through] at all
      exact all
    · have ready := h.ready closed joined greeted
      rw [numbers, settle_append, ← through] at ready
      exact ready

/-! ## What comes the other way -/

/-- The sender takes a frame of the other end. -/
def met (l : Lane) (f : Frame) (now : SessionTime) : Lane :=
  { l with
    voice := { l.voice with record := l.voice.record.perform [f] now (.deliver 0) }
    greeted := l.greeted || LineEnd.isMetBy l.voice.record.link f now }

/-- **The sender takes a frame.**  A hello makes it queue everything that the other end lacks, and by then no heartbeat
is ready to be sent before that. -/
theorem Fair.meet (h : l.Fair) (ground : l.Grounded session) (patient : l.Patient) {f : Frame} {now : SessionTime}
    (after : (l.met f now).Grounded session) (joined : l.joined = true) : (l.met f now).Fair := by
  have handles := l.voice.record.link.handles_onFrame f now
  have stage : l.voice.record.link.state.stage ≤ (l.voice.record.link.onFrame f now).1.state.stage :=
    stage_onFrame l.voice.record.link f now
  have beats : (l.met f now).voice.beats = l.voice.beats := by
    have same : (l.voice.record.link.onFrame f now).1.pulse.beats = l.voice.record.link.pulse.beats := by
      rcases pulse_onFrame ground.coherent.silent f now with same | ⟨t, -, more⟩
      · rw [same]
      · rw [more]
    exact congrArg (Frame.beats l.voice.finals ++ ·) same
  refine ⟨fun greeted => ?_, h.told, h.heard, h.rides, fun ear _ greeted isOpen => ?_, fun ear _ _ => ?_⟩
  · rcases Bool.or_eq_true_iff.mp greeted with before | met
    · obtain ⟨remote, talking⟩ := h.talks before
      exact ⟨handles.remote remote, Nat.le_trans talking stage⟩
    · obtain ⟨remote, established, -⟩ := handles.met met
      refine ⟨remote, ?_⟩
      show 1 ≤ (l.voice.record.link.onFrame f now).1.state.stage
      rw [established]
      exact Nat.le_refl _
  · -- Until the hello nothing is promised, so the case split is whether this frame is the one.
    have wasOpen := LinkState.isOpen_of_stage stage isOpen
    cases met : LineEnd.isMetBy l.voice.record.link f now with
    | true =>
      have queued := (handles.met met).2.2 (ground.connected joined wasOpen)
      exact LinkEnd.complete_of_again queued after.coherent after.flow after.readable after.fewer _
    | false =>
      have before : l.greeted = true := by
        have either : (l.greeted || LineEnd.isMetBy l.voice.record.link f now) = true := greeted
        rwa [met, Bool.or_false] at either
      show _ ≤ settle _ (_ ++ (l.voice.record.link.onFrame f now).1.queued)
      rw [handles.unmet met]
      exact h.complete ear joined before wasOpen
  · rw [beats]
    intro t mem
    cases greeted : l.greeted with
    | true => exact h.ready ear joined greeted t mem
    | false =>
      rw [patient joined greeted] at mem
      exact absurd mem List.not_mem_nil

end Lane

end Tandem
