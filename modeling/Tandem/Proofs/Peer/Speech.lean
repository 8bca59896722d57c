import Tandem.Proofs.Link.Voices
import Tandem.Proofs.Matching.SelectionStamps
import Tandem.Proofs.Peer.Duet
/-!
# What a peer tells and what it heeds

Whatever a peer does to its link is an act of a voice (`Voice.Acts`): its *horizon* is the later of the session time
and the latest stamp it has issued or seen, and each input that it forwards is stamped no earlier than that.  And
whatever a peer does with the messages of the other one, it reconciles them in order and remembers the latest time
that they tell.  `Peer.Advances` is about both, and there is one lemma for each thing a peer does.
-/

namespace Tandem

/-- The later of a time and the time that a message tells. -/
def SyncMessage.heed (t : SessionTime) (m : SyncMessage) : SessionTime :=
  match m.moment? with
  | some time => t.latest time
  | none => t

/-! ## What a reconciler remembers -/

namespace Reconciler

variable {r : Reconciler} {b : Battery}

theorem last_foldl_observe (changes : List FieldChange) (r : Reconciler) :
    r.clock.last ≤ (changes.foldl (fun r c => r.observe c.stamp) r).clock.last := by
  induction changes generalizing r with
  | nil => exact Std.le_refl _
  | cons c rest ih => exact Std.le_trans (r.clock.last_observe c.stamp).1 (ih (r.observe c.stamp))

/-- The selections of the pending round have been seen, whatever the other peer sends. -/
theorem stampedBy_onRemoteMessage (h : b.matching.StampedBy r.clock.last) (sender : ParticipantId) (m : SyncMessage) :
    r.clock.last ≤ (r.onRemoteMessage b sender m).1.clock.last ∧
      (r.onRemoteMessage b sender m).2.1.matching.StampedBy (r.onRemoteMessage b sender m).1.clock.last := by
  have still : r.clock.last ≤ r.clock.last := Std.le_refl _
  unfold onRemoteMessage
  split
  · exact ⟨still, h⟩
  · cases m with
    | forward e stamp =>
      dsimp only
      unfold onRemoteInput
      split
      · exact ⟨still, h⟩
      · split
        · exact ⟨still, h⟩
        · obtain ⟨later, seen⟩ := r.clock.last_observe stamp
          have applied := (Battery.stampedBy_applyInput (h.mono later) (e := e) seen (.remoteInput sender)).1
          dsimp only
          split
          · rename_i same
            rw [same] at applied
            exact ⟨later, applied⟩
          · rename_i same
            rw [same] at applied
            exact ⟨later, applied⟩
    | delta task changes =>
      have later := last_foldl_observe changes r
      exact ⟨later, h.mono later⟩
    | heartbeat | hello | start | pause | resume | finish => exact ⟨still, h⟩

/-- Only a message that steers the session is passed on, and such a message has no writes. -/
theorem eq_of_passthrough {sender : ParticipantId} {m m' : SyncMessage}
    (h : (r.onRemoteMessage b sender m).2.2 = .passthrough m') : m' = m ∧ m.task? = none := by
  unfold onRemoteMessage at h
  split at h
  · cases h
  · cases m with
    | forward e stamp =>
      dsimp only at h
      unfold onRemoteInput at h
      split at h
      · cases h
      · split at h
        · cases h
        · dsimp only at h
          split at h <;> cases h
    | delta task changes => cases h
    | heartbeat | hello | start | pause | resume | finish =>
      cases h
      exact ⟨rfl, rfl⟩

/-- **What an own input comes to**: it is stamped at or after every time that is known, and what is forwarded is the
input and what took effect. -/
theorem onLocalInput_cases (h : b.matching.StampedBy r.clock.last) (e : InputEvent) (now : SessionTime) :
    (r.onLocalInput b e now).1.clock = (r.clock.issue now).2 ∧
      (r.onLocalInput b e now).2.1.matching.StampedBy (r.clock.issue now).2.last ∧
      ((r.onLocalInput b e now).2.2 = [] ∨ ∃ changes : List FieldChange,
        (∀ d ∈ changes, d.stamp.time ≤ (r.clock.issue now).2.last) ∧
        (r.onLocalInput b e now).2.2 = [.forward e (r.clock.issue now).1, .delta e.target changes]) := by
  obtain ⟨time, later, -⟩ := r.clock.last_issue now
  obtain ⟨matching, writes⟩ := Battery.stampedBy_applyInput (h.mono later) (e := e) (Std.le_of_eq time)
    (.localInput e.origin)
  unfold onLocalInput
  dsimp only
  split
  · rename_i same
    rw [same] at matching
    exact ⟨rfl, matching, Or.inl rfl⟩
  · rename_i b' outcome same
    rw [same] at matching writes
    split
    · exact ⟨rfl, matching, Or.inl rfl⟩
    · split
      · exact ⟨rfl, matching, Or.inl rfl⟩
      · exact ⟨rfl, matching, Or.inr ⟨outcome.applied, writes outcome rfl, rfl⟩⟩

end Reconciler

namespace Peer

/-! ## Horizons -/

/-- No input that is still to be stamped is stamped before this time. -/
def horizon (p : Peer) : SessionTime := p.now.latest p.reconciler.clock.last

theorem now_le_horizon (p : Peer) : p.now ≤ p.horizon := SessionTime.le_latest_left _ _

/-- A peer as it speaks over its link. -/
def voice (p : Peer) (record : LinkEnd) : Voice := ⟨record, p.horizon, p.finalFrames⟩

/-- What holds of a peer at any time. -/
structure Wise (p : Peer) : Prop where
  waiting : p.phase = .waiting → p.clock = .new
  /-- The peer has seen the selections of the pending round. -/
  selections : p.battery.matching.StampedBy p.reconciler.clock.last

/-- How a peer goes on when nothing comes from the link. -/
structure Steps (p p' : Peer) : Prop where
  wise : p'.Wise
  now : p.now ≤ p'.now
  epoch : p'.epoch = p.epoch
  finished : p.isFinished = true → p'.isFinished = true
  speaks : ∀ e, e.link = p.link → ∃ e', e'.link = p'.link ∧ e'.fetched = e.fetched ∧ (p.voice e).Goes (p'.voice e')

/-- The messages that are not held any more have been reconciled in order, unless the session is over. -/
def Heeds (p p' : Peer) : Prop := p'.isFinished = true ∨ ∃ heeded, p.held = heeded ++ p'.held ∧
  p'.remoteTime = heeded.foldl SyncMessage.heed p.remoteTime

/-- How a peer goes on, and what it heeds meanwhile. -/
structure Advances (p p' : Peer) : Prop extends Steps p p' where
  heeds : p.Heeds p'

theorem Steps.trans {p q r : Peer} (first : p.Steps q) (second : q.Steps r) : p.Steps r where
  wise := second.wise
  now := Std.le_trans first.now second.now
  epoch := second.epoch.trans first.epoch
  finished := second.finished ∘ first.finished
  speaks e same := by
    obtain ⟨e', same', fetched, goes⟩ := first.speaks e same
    obtain ⟨e'', same'', fetched', goes'⟩ := second.speaks e' same'
    exact ⟨e'', same'', fetched'.trans fetched, goes.trans goes'⟩

theorem Heeds.of_eq {p p' : Peer} (held : p'.held = p.held) (remoteTime : p'.remoteTime = p.remoteTime) : p.Heeds p' :=
  Or.inr ⟨[], held.symm, remoteTime⟩

theorem Advances.trans {p q r : Peer} (first : p.Advances q) (second : q.Advances r) : p.Advances r where
  toSteps := first.toSteps.trans second.toSteps
  heeds := by
    rcases second.heeds with ended | ⟨later, split', time'⟩
    · exact Or.inl ended
    · rcases first.heeds with ended | ⟨earlier, split, time⟩
      · exact Or.inl (second.finished ended)
      · refine Or.inr ⟨earlier ++ later, ?_, ?_⟩
        · rw [split, split', List.append_assoc]
        · rw [time', time, List.foldl_append]

/-- A change that leaves the link alone. -/
structure Aside (p p' : Peer) : Prop where
  link : p'.link = p.link
  finals : p'.finalFrames = p.finalFrames
  epoch : p'.epoch = p.epoch
  finished : p.isFinished = true → p'.isFinished = true
  now : p.now ≤ p'.now
  clock : p.reconciler.clock.last ≤ p'.reconciler.clock.last
  wise : p'.Wise

theorem Aside.horizon {p p' : Peer} (h : p.Aside p') : p.horizon ≤ p'.horizon :=
  SessionTime.latest_le (Std.le_trans h.now (SessionTime.le_latest_left _ _))
    (Std.le_trans h.clock (SessionTime.le_latest_right _ _))

theorem Aside.steps {p p' : Peer} (h : p.Aside p') : p.Steps p' where
  wise := h.wise
  now := h.now
  epoch := h.epoch
  finished := h.finished
  speaks e same := by
    refine ⟨e, same.trans h.link.symm, rfl, ?_⟩
    rw [voice, voice, h.finals]
    exact .single (.waits h.horizon)

/-- The parts of a peer that matter for what it tells and heeds. -/
structure Stance where
  link : Link
  finals : List Frame
  epoch : Option UInt64
  held : List SyncMessage
  remoteTime : SessionTime
  phase : PeerPhase
  clock : SessionClock
  reconciler : Reconciler
  matching : Coordinator

/-- The parts of a peer that matter for what it tells and heeds. -/
def stance (p : Peer) : Stance :=
  ⟨p.link, p.finalFrames, p.epoch, p.held, p.remoteTime, p.phase, p.clock, p.reconciler, p.battery.matching⟩

theorem Wise.of_stance {p p' : Peer} (h : p.Wise) (same : p'.stance = p.stance) : p'.Wise := by
  simp only [stance, Stance.mk.injEq] at same
  obtain ⟨-, -, -, -, -, phase, clock, reconciler, matching⟩ := same
  constructor
  · rw [phase, clock]
    exact h.waiting
  · rw [matching, reconciler]
    exact h.selections

theorem Wise.aside {p p' : Peer} (h : p.Wise) (same : p'.stance = p.stance) : p.Aside p' := by
  have wise := h.of_stance same
  simp only [stance, Stance.mk.injEq] at same
  obtain ⟨link, finals, epoch, -, -, phase, clock, reconciler, -⟩ := same
  refine ⟨link, finals, epoch, ?_, ?_, ?_, wise⟩
  · rw [isFinished, isFinished, phase]
    exact id
  · rw [now, now, clock]
    exact Std.le_refl _
  · rw [reconciler]
    exact Std.le_refl _

/-- A change of what does not matter. -/
theorem Wise.still {p p' : Peer} (h : p.Wise) (same : p'.stance = p.stance) : p.Advances p' where
  toSteps := (h.aside same).steps
  heeds := by
    simp only [stance, Stance.mk.injEq] at same
    exact .of_eq same.2.2.2.1 same.2.2.2.2.1

theorem Wise.count {p : Peer} (h : p.Wise) (f : PeerStats → PeerStats) : p.Advances (p.count f) := h.still rfl

/-! ## What a peer tells -/

theorem stance_send (p : Peer) (m : SyncMessage) (now : SessionTime) :
    (p.send m now).stance = { p.stance with link := (p.link.send m now).1 } := by
  unfold send
  split
  · rename_i same
    rw [same]
    rfl
  · rename_i same
    rw [same]
    rfl

@[simp] theorem now_send (p : Peer) (m : SyncMessage) (now : SessionTime) : (p.send m now).now = p.now :=
  congrArg (fun s : Stance => s.clock.now) (p.stance_send m now)

@[simp] theorem horizon_send (p : Peer) (m : SyncMessage) (now : SessionTime) : (p.send m now).horizon = p.horizon :=
  congrArg (fun s : Stance => s.clock.now.latest s.reconciler.clock.last) (p.stance_send m now)

@[simp] theorem held_send (p : Peer) (m : SyncMessage) (now : SessionTime) : (p.send m now).held = p.held :=
  congrArg Stance.held (p.stance_send m now)

@[simp] theorem remoteTime_send (p : Peer) (m : SyncMessage) (now : SessionTime) :
    (p.send m now).remoteTime = p.remoteTime :=
  congrArg Stance.remoteTime (p.stance_send m now)

/-- A message is told when something has happened. -/
theorem Aside.tell {p q : Peer} (h : p.Aside q) {m : SyncMessage} (isLocal : m.isLinkLocal = false)
    (known : ∀ t, m.moment? = some t → t ≤ q.horizon) (fresh : m.NotBefore p.horizon) (now : SessionTime) :
    p.Steps (q.send m now) := by
  have stance := q.stance_send m now
  simp only [Peer.stance, Stance.mk.injEq] at stance
  obtain ⟨link, finals, epoch, -, -, phase, clock, reconciler, matching⟩ := stance
  refine ⟨⟨?_, ?_⟩, ?_, epoch.trans h.epoch, ?_, fun e same => ?_⟩
  · rw [phase, clock]
    exact h.wise.waiting
  · rw [matching, reconciler]
    exact h.wise.selections
  · rw [now_send]
    exact h.now
  · rw [isFinished, isFinished, phase]
    exact h.finished
  · refine ⟨e.perform [] now (.send m), ?_, ?_, ?_⟩
    · rw [link, h.link, ← same]
      dsimp only [LinkEnd.perform]
      split
      · rename_i sent
        rw [sent]
      · rename_i sent
        rw [sent]
    · dsimp only [LinkEnd.perform]
      split <;> rfl
    · rw [voice, voice, horizon_send, finals, h.finals]
      exact .single (.tells now h.horizon isLocal known fresh)

theorem Wise.send {p : Peer} (h : p.Wise) {m : SyncMessage} (isLocal : m.isLinkLocal = false)
    (known : ∀ t, m.moment? = some t → t ≤ p.horizon) (fresh : m.NotBefore p.horizon) (now : SessionTime) :
    p.Advances (p.send m now) where
  toSteps := (h.aside rfl).tell isLocal known fresh now
  heeds := .of_eq (p.held_send m now) (p.remoteTime_send m now)

/-- A message that steers the session tells the time at which it is sent. -/
theorem Aside.steer {p q : Peer} (h : p.Aside q) {m : SyncMessage} (isLocal : m.isLinkLocal = false)
    (task : m.task? = none) (known : ∀ t, m.moment? = some t → t ≤ q.now) (held : q.held = p.held)
    (remoteTime : q.remoteTime = p.remoteTime) (now : SessionTime) : p.Advances (q.send m now) where
  toSteps := by
    refine h.tell isLocal (fun t told => Std.le_trans (known t told) q.now_le_horizon) (fun e s same => ?_) now
    rw [same] at task
    cases task
  heeds := .of_eq ((q.held_send m now).trans held) ((q.remoteTime_send m now).trans remoteTime)

/-- An input is told with what took effect. -/
theorem Aside.forward {p q : Peer} (h : p.Aside q) (held : q.held = p.held) (remoteTime : q.remoteTime = p.remoteTime)
    {e : InputEvent} {s : Stamp} (known : s.time ≤ q.horizon) (fresh : p.horizon ≤ s.time) {task : TaskId}
    {changes : List FieldChange} (bounded : ∀ d ∈ changes, d.stamp.time ≤ q.horizon) (now : SessionTime) :
    p.Advances ((q.send (.forward e s) now).send (.delta task changes) now) := by
  have first : p.Advances (q.send (.forward e s) now) := by
    refine ⟨h.tell rfl (fun t told => ?_) (fun e s same => ?_) now, .of_eq ?_ ?_⟩
    · cases told
      exact known
    · cases same
      exact fresh
    · rw [held_send, held]
    · rw [remoteTime_send, remoteTime]
  -- What took effect is told behind the input, under stamps that the peer has seen by then.
  refine first.trans (first.wise.send rfl (fun t told => ?_) (fun _ _ same => by cases same) now)
  rw [horizon_send]
  exact SyncMessage.writeTime_delta bounded told

theorem Wise.pause {p : Peer} (h : p.Wise) : p.Advances p.pause := by
  unfold Peer.pause
  split
  · exact h.still rfl
  · rename_i running
    have running : p.phase = .running := Decidable.of_not_not running
    have aside : p.Aside { p with clock := p.clock.pause, phase := .paused } := by
      refine ⟨rfl, rfl, rfl, fun ended => ?_, Std.le_refl _, Std.le_refl _, nofun, h.selections⟩
      rw [isFinished, running] at ended
      cases ended
    exact aside.steer rfl rfl (fun t told => by cases told; exact Std.le_refl _) rfl rfl _

theorem Wise.resume {p : Peer} (h : p.Wise) : p.Advances p.resume := by
  unfold Peer.resume
  split
  · exact h.still rfl
  · rename_i paused
    have paused : p.phase = .paused := Decidable.of_not_not paused
    have aside : p.Aside { p with clock := p.clock.resume, phase := .running } := by
      refine ⟨rfl, rfl, rfl, fun ended => ?_, Std.le_refl _, Std.le_refl _, nofun, h.selections⟩
      rw [isFinished, paused] at ended
      cases ended
    exact aside.steer rfl rfl (fun t told => by cases told; exact Std.le_refl _) rfl rfl _

/-- The session starts with the clock where it is. -/
theorem Wise.maybeStart {p : Peer} (h : p.Wise) : p.Advances (p.maybeStart p.now) := by
  unfold Peer.maybeStart
  split
  · exact h.still rfl
  · rename_i ready
    have waiting : p.phase = .waiting := Decidable.of_not_not fun other => ready (Or.inr (Or.inl other))
    have aside : p.Aside { p with clock := p.clock.startAt p.now, phase := .running } := by
      refine ⟨rfl, rfl, rfl, fun ended => ?_, Std.le_refl _, Std.le_refl _, nofun, h.selections⟩
      rw [isFinished, waiting] at ended
      cases ended
    exact aside.steer rfl rfl (fun t told => by cases told; exact Std.le_refl _) rfl rfl _

/-- The session is over and the link is closed. -/
theorem Wise.conclude {p : Peer} (h : p.Wise) (now : SessionTime) : p.Advances (p.conclude now) where
  wise := ⟨nofun, h.selections⟩
  now := Std.le_refl _
  epoch := rfl
  finished _ := rfl
  speaks e same := by
    refine ⟨e.perform [] now .close, ?_, rfl, .single (.closes now)⟩
    show e.link.close now = p.link.close now
    rw [same]
  heeds := Or.inl rfl

theorem Wise.terminate {p : Peer} (h : p.Wise) : p.Advances p.terminate := by
  unfold Peer.terminate
  split
  · exact h.still rfl
  · have told := h.send (m := .finish) rfl nofun (fun _ _ same => by cases same) p.now
    have last : (p.send .finish p.now).Advances ({ p.send .finish p.now with
        link := (p.send .finish p.now).link.drainOutbound.2
        finalFrames := (p.send .finish p.now).finalFrames ++ (p.send .finish p.now).link.drainOutbound.1 }.conclude
          p.now) := by
      refine ⟨⟨⟨nofun, told.wise.selections⟩, Std.le_refl _, rfl, fun _ => rfl, fun e same => ?_⟩, Or.inl rfl⟩
      refine ⟨(e.perform [] p.now .drainOutbound).perform [] p.now .close, ?_, rfl, ?_⟩
      · show e.link.drainOutbound.2.close p.now = _
        rw [same]
        rfl
      · have acts := Voice.Acts.hangsUp (v := (p.send .finish p.now).voice e) p.now p.now
        refine .single ?_
        rw [voice, same] at acts
        exact acts
    exact told.trans last

theorem Wise.escape {p : Peer} (h : p.Wise) : p.Advances p.escape.2 := by
  unfold Peer.escape
  split
  · exact h.terminate
  · exact h.still rfl

/-- **An own input is told** under a stamp that is not before the horizon, and what took effect after it. -/
theorem Wise.applyInput {p : Peer} (h : p.Wise) {now : SessionTime} (past : p.now ≤ now) (payload : InputPayload) :
    p.Advances (p.applyInput payload now) ∧ (p.applyInput payload now).now = p.now := by
  obtain ⟨clock, matching, messages⟩ := p.reconciler.onLocalInput_cases h.selections
    (.captured p.config.localId now payload) now
  obtain ⟨time, later, present⟩ := p.reconciler.clock.last_issue now
  unfold Peer.applyInput
  dsimp only
  generalize p.reconciler.onLocalInput p.battery (.captured p.config.localId now payload) now = out
    at clock matching messages ⊢
  obtain ⟨reconciler, battery, sent⟩ := out
  dsimp only at clock matching messages ⊢
  have aside : p.Aside { p with reconciler := reconciler, battery := battery } := by
    refine ⟨rfl, rfl, rfl, id, Std.le_refl _, clock ▸ later, h.waiting, ?_⟩
    rw [← clock] at matching
    exact matching
  have known : (p.reconciler.clock.issue now).2.last ≤
      ({ p with reconciler := reconciler, battery := battery } : Peer).horizon :=
    clock ▸ SessionTime.le_latest_right _ _
  rcases messages with none | ⟨changes, bounded, both⟩
  · rw [none]
    exact ⟨⟨aside.steps, .of_eq rfl rfl⟩, rfl⟩
  · rw [both]
    constructor
    · -- The stamp is no earlier than the session time and than any stamp that the peer has seen.
      refine aside.forward rfl rfl known ?_ (fun d mem => Std.le_trans (bounded d mem) known) now
      exact SessionTime.latest_le (Std.le_trans past present) later
    · exact (now_send _ _ _).trans (now_send _ _ _)

theorem Wise.applyLocalInputs {p : Peer} (h : p.Wise) {now : SessionTime} (past : p.now ≤ now) :
    p.Advances (p.applyLocalInputs now) := by
  have each : ∀ (l : List InputPayload) (p : Peer), p.Wise → p.now ≤ now →
      p.Advances (l.foldl (fun p payload => p.applyInput payload now) p) := by
    intro l
    induction l with
    | nil => exact fun p wise _ => wise.still rfl
    | cons payload rest ih =>
      intro p wise past
      obtain ⟨first, same⟩ := wise.applyInput past payload
      exact first.trans (ih _ first.wise (same ▸ past))
  unfold Peer.applyLocalInputs
  dsimp only
  have emptied : p.Advances { p with pendingInputs := .empty } := h.still rfl
  split
  · exact h.still rfl
  · exact emptied.trans (each _ _ emptied.wise past)

/-! ## What a peer heeds -/

/-- A message has been heeded, or the session is over. -/
def Heeded (p p' : Peer) (m : SyncMessage) : Prop :=
  p'.isFinished = true ∨ p'.held = p.held ∧ p'.remoteTime = SyncMessage.heed p.remoteTime m

theorem Wise.noteRemoteTime {p : Peer} (h : p.Wise) (t : SessionTime) : p.Aside (p.noteRemoteTime t) :=
  ⟨rfl, rfl, rfl, id, Std.le_refl _, Std.le_refl _, h.waiting, h.selections⟩

/-- A time that the other peer tells moves the clock forward. -/
theorem Wise.sync {p : Peer} (h : p.Wise) (t : SessionTime) (phase : PeerPhase) (clock : SessionClock → SessionClock)
    (keeps : ∀ c, (clock c).now = c.now) (on : p.isFinished = false) (started : phase ≠ .waiting) :
    p.Aside { p with clock := clock (p.clock.syncTo t), phase := phase } := by
  refine ⟨rfl, rfl, rfl, fun ended => ?_, ?_, Std.le_refl _, fun waiting => absurd waiting started, h.selections⟩
  · rw [on] at ended
    cases ended
  · show p.clock.now ≤ (clock (p.clock.syncTo t)).now
    rw [keeps]
    exact p.clock.le_syncTo t

/-- A message that steers the session is followed. -/
theorem Wise.onControl {p : Peer} (h : p.Wise) {m : SyncMessage} (task : m.task? = none) :
    p.Steps (p.onControl m) ∧ p.Heeded (p.onControl m) m := by
  cases m with
  | forward | delta => cases task
  | heartbeat | hello => exact ⟨(h.aside rfl).steps, Or.inr ⟨rfl, rfl⟩⟩
  | start seed =>
    have noted := h.noteRemoteTime seed
    dsimp only [Peer.onControl, onStart]
    split
    · rename_i waiting
      have fresh : (p.noteRemoteTime seed).clock = .new := h.waiting waiting
      have started : ({ p.noteRemoteTime seed with
          clock := (p.noteRemoteTime seed).clock.startAt seed, phase := .running } : Peer).Wise :=
        ⟨(fun never => by cases never), h.selections⟩
      refine ⟨noted.steps.trans (Aside.steps ⟨rfl, rfl, rfl, fun ended => ?_, ?_, Std.le_refl _, started⟩),
        Or.inr ⟨rfl, rfl⟩⟩
      · rw [isFinished, waiting] at ended
        cases ended
      · rw [now, fresh]
        exact SessionTime.zero_le _
    · exact ⟨noted.steps, Or.inr ⟨rfl, rfl⟩⟩
  | pause time =>
    have noted := h.noteRemoteTime time
    dsimp only [Peer.onControl, onPause]
    split
    · rename_i running
      have on : (p.noteRemoteTime time).isFinished = false := by rw [isFinished, running]; rfl
      have moved := noted.wise.sync time .paused .pause (fun _ => rfl) on (by decide)
      exact ⟨noted.steps.trans moved.steps, Or.inr ⟨rfl, rfl⟩⟩
    · exact ⟨noted.steps, Or.inr ⟨rfl, rfl⟩⟩
  | resume time =>
    have noted := h.noteRemoteTime time
    dsimp only [Peer.onControl, onResume]
    split
    · rename_i paused
      have on : (p.noteRemoteTime time).isFinished = false := by rw [isFinished, paused]; rfl
      have moved := noted.wise.sync time .running .resume (fun _ => rfl) on (by decide)
      exact ⟨noted.steps.trans moved.steps, Or.inr ⟨rfl, rfl⟩⟩
    · exact ⟨noted.steps, Or.inr ⟨rfl, rfl⟩⟩
  | finish =>
    dsimp only [Peer.onControl]
    split
    · rename_i ended
      exact ⟨(h.aside rfl).steps, Or.inl ended⟩
    · exact ⟨(h.conclude p.now).toSteps, Or.inl rfl⟩

theorem reconcile_control (p : Peer) {m : SyncMessage} (task : m.task? = none) : p.reconcile m = p.onControl m := by
  cases m with
  | forward | delta => cases task
  | heartbeat | hello | start | pause | resume | finish => rfl

/-- Of a message about a task the time of its writes is remembered. -/
theorem reconcile_task (p : Peer) {m : SyncMessage} (task : m.task? ≠ none) : p.reconcile m =
    let p := { p with remoteTime := SyncMessage.heed p.remoteTime m }
    let (reconciler, battery, outcome) := p.reconciler.onRemoteMessage p.battery p.config.remoteId m
    let p := { p with reconciler := reconciler, battery := battery }
    match outcome with
    | .applied _ | .duplicate | .localTask _ => p
    | .rejected _ => p.count (fun s => { s with remoteRejected := s.remoteRejected + 1 })
    | .passthrough m => p.onControl m := by
  cases m with
  | forward => rfl
  | delta task changes => cases changes <;> rfl
  | heartbeat | hello | start | pause | resume | finish => exact absurd rfl task

/-- **A message is reconciled**, and the time that it tells is remembered. -/
theorem Wise.reconcile {p : Peer} (h : p.Wise) (m : SyncMessage) :
    p.Steps (p.reconcile m) ∧ p.Heeded (p.reconcile m) m := by
  by_cases task : m.task? = none
  · rw [p.reconcile_control task]
    exact h.onControl task
  · obtain ⟨later, matching⟩ := Reconciler.stampedBy_onRemoteMessage h.selections p.config.remoteId m
    have kept := @Reconciler.eq_of_passthrough p.reconciler p.battery p.config.remoteId m
    rw [p.reconcile_task task]
    dsimp only
    generalize p.reconciler.onRemoteMessage p.battery p.config.remoteId m = out at later matching kept ⊢
    obtain ⟨reconciler, battery, outcome⟩ := out
    have aside : p.Aside { p with
        remoteTime := SyncMessage.heed p.remoteTime m, reconciler := reconciler, battery := battery } :=
      ⟨rfl, rfl, rfl, id, Std.le_refl _, later, h.waiting, matching⟩
    cases outcome with
    | applied | duplicate | localTask => exact ⟨aside.steps, Or.inr ⟨rfl, rfl⟩⟩
    | rejected => exact ⟨aside.steps.trans (aside.wise.count _).toSteps, Or.inr ⟨rfl, rfl⟩⟩
    -- A message about a task is never passed on.
    | passthrough m' => exact absurd (kept rfl).2 task

/-- The first message that is held is reconciled. -/
theorem Wise.release {p : Peer} (h : p.Wise) {m : SyncMessage} {rest : List SyncMessage} (held : p.held = m :: rest) :
    p.Advances ({ p with held := rest }.reconcile m) := by
  have taken : p.Aside { p with held := rest } :=
    ⟨rfl, rfl, rfl, id, Std.le_refl _, Std.le_refl _, h.waiting, h.selections⟩
  obtain ⟨steps, heeded⟩ := taken.wise.reconcile m
  refine ⟨taken.steps.trans steps, ?_⟩
  rcases heeded with ended | ⟨same, time⟩
  · exact Or.inl ended
  · exact Or.inr ⟨[m], by rw [held, same]; rfl, time⟩

theorem Wise.releaseUpTo (limit : Nat) {p : Peer} (h : p.Wise) : p.Advances (releaseUpTo limit p) := by
  induction limit generalizing p with
  | zero => exact h.still rfl
  | succ limit ih =>
    unfold Peer.releaseUpTo
    cases held : p.held with
    | nil => exact h.still rfl
    | cons m rest =>
      dsimp only
      split
      · exact h.still rfl
      · have first := h.release held
        exact first.trans (ih first.wise)

theorem Wise.releaseHeld {p : Peer} (h : p.Wise) : p.Advances p.releaseHeld := h.releaseUpTo _

/-! ## The other stages -/

theorem Wise.onSessionCommand {p : Peer} (h : p.Wise) (c : SessionCommand) (now : SessionTime) :
    p.Advances (p.onSessionCommand c now) := by
  cases c with
  | finish => exact h.terminate
  | pause => exact h.pause
  | resume => exact h.resume
  | log | showLabels | allowEscape | allowAltF4 => exact h.still rfl

theorem Wise.runCommand {p : Peer} (h : p.Wise) (c : ScenarioCommand) (now : SessionTime) :
    p.Advances (p.runCommand c now) := by
  have later := (p.reconciler.clock.last_observe c.stamp).1
  have ran : p.Advances { p with reconciler := p.reconciler.observe c.stamp, battery := (p.battery.run c).1 } := by
    refine ⟨Aside.steps ⟨rfl, rfl, rfl, id, Std.le_refl _, later, h.waiting, ?_⟩, .of_eq rfl rfl⟩
    exact Battery.stampedBy_run (h.selections.mono later) c
  unfold Peer.runCommand
  dsimp only
  split
  · exact ran.trans (ran.wise.count _)
  · exact ran.trans ((ran.wise.count _).trans ((ran.wise.count _).wise.onSessionCommand _ now))
  · exact ran.trans (ran.wise.count _)

theorem Wise.runCommands (commands : List ScenarioCommand) {p : Peer} (h : p.Wise) (now : SessionTime) :
    p.Advances (p.runCommands now commands) := by
  induction commands generalizing p with
  | nil => exact h.still rfl
  | cons c rest ih =>
    have first := h.runCommand c now
    unfold Peer.runCommands
    dsimp only
    split
    · exact first
    · exact first.trans (ih first.wise)

theorem Wise.dispatchScenario {p : Peer} (h : p.Wise) (now : SessionTime) : p.Advances (p.dispatchScenario now) := by
  unfold Peer.dispatchScenario
  split
  · exact h.still rfl
  · split
    · exact h.still rfl
    · have handedOut : p.Advances { p with queue := (p.queue.advance now.wholeSeconds).2 } := h.still rfl
      exact handedOut.trans (handedOut.wise.runCommands _ now)

theorem Wise.expireRounds {p : Peer} (h : p.Wise) (now : SessionTime) : p.Advances (p.expireRounds now) := by
  unfold Peer.expireRounds
  split
  · exact h.still rfl
  · refine ⟨Aside.steps ⟨rfl, rfl, rfl, id, Std.le_refl _, Std.le_refl _, h.waiting, ?_⟩, .of_eq rfl rfl⟩
    exact Battery.stampedBy_expireRounds h.selections _

/-- The timers of the link tell a time that has come. -/
theorem Wise.runLinkTimers {p : Peer} (h : p.Wise) {now : SessionTime} (past : now ≤ p.now) :
    p.Advances (p.runLinkTimers now) := by
  have ticked : p.Advances { p with link := (p.link.tick now).1 } := by
    refine ⟨⟨⟨h.waiting, h.selections⟩, Std.le_refl _, rfl, id, fun e same => ?_⟩, .of_eq rfl rfl⟩
    refine ⟨e.perform [] now .tick, ?_, rfl, .single (.ticks (Std.le_trans past p.now_le_horizon))⟩
    show (e.link.tick now).1 = (p.link.tick now).1
    rw [same]
  unfold Peer.runLinkTimers
  split
  · rename_i link same
    rw [same] at ticked
    exact ticked
  · rename_i link same
    rw [same] at ticked
    dsimp only
    split
    · exact ticked
    · -- The link has given up and the session is over; what is held does not matter any more.
      refine ticked.trans
        ⟨Aside.steps ⟨rfl, rfl, rfl, fun _ => rfl, Std.le_refl _, Std.le_refl _, nofun, ?_⟩, Or.inl rfl⟩
      exact ticked.wise.selections
  · rename_i link fault _ same
    rw [same] at ticked
    exact ticked.trans (ticked.wise.count _)

theorem Wise.flushLog {p : Peer} (h : p.Wise) (now : SessionTime) : p.Advances (p.flushLog now) := h.still rfl

/-! ## Whole actions -/

theorem Wise.advanced {p : Peer} (h : p.Wise) (dt : Duration) : p.Aside (p.advanced dt) := by
  refine ⟨rfl, rfl, rfl, id, p.clock.le_advance dt, Std.le_refl _, fun waiting => ?_, h.selections⟩
  -- A clock that has not been started does not move.
  show p.clock.advance dt = .new
  rw [h.waiting waiting]
  rfl

theorem Wise.requeueOutbound {p : Peer} (h : p.Wise) : p.Advances p.requeueOutbound := by
  refine ⟨⟨⟨h.waiting, h.selections⟩, Std.le_refl _, rfl, id, fun e same => ?_⟩, .of_eq rfl rfl⟩
  refine ⟨e.perform [] p.now .requeue, ?_, rfl, .single (.requeues p.now)⟩
  show e.link.requeue p.now = p.link.requeue p.now
  rw [same]

/-- What has arrived is fetched and held. -/
structure Fetches (p p' : Peer) : Prop where
  wise : p'.Wise
  now : p'.now = p.now
  epoch : p'.epoch = p.epoch
  phase : p'.phase = p.phase
  held : p'.held = p.held ++ p.link.inbox.toList
  remoteTime : p'.remoteTime = p.remoteTime
  speaks : ∀ e, e.link = p.link → ∃ e', e'.link = p'.link ∧ e'.fetched = e.fetched ++ p.link.inbox.toList ∧
    (p.voice e).Goes (p'.voice e')

theorem Wise.received {p : Peer} (h : p.Wise) : p.Fetches p.received := by
  refine ⟨⟨h.waiting, h.selections⟩, rfl, rfl, rfl, rfl, rfl, fun e same => ?_⟩
  refine ⟨e.perform [] p.now .drainInbound, ?_, ?_, .single (.fetches p.now)⟩
  · show e.link.drainInbound.2 = p.link.drainInbound.2
    rw [same]
  · show e.fetched ++ e.link.inbox.toList = _
    rw [same]

/-- The peer when its rounds are looked at in a step. -/
def judged (p : Peer) (dt : Duration) : Peer := (p.advanced dt).dispatched.releaseHeld

/-- **The stages of a step before the rounds are looked at**, from the messages that have been fetched on. -/
theorem Wise.judged {p : Peer} (h : p.Wise) (dt : Duration) :
    (p.advanced dt).received.Advances (p.judged dt) ∧ (p.advanced dt).heard.now ≤ (p.judged dt).now := by
  have heard : (p.advanced dt).received.Advances (p.advanced dt).heard := (h.advanced dt).wise.received.wise.releaseHeld
  have own := heard.wise.applyLocalInputs (Std.le_refl _)
  have script := own.wise.dispatchScenario (p.advanced dt).heard.now
  have later := (own.trans script).trans script.wise.releaseHeld
  exact ⟨heard.trans later, later.now⟩

/-- The rest of a step. -/
theorem Wise.step {p : Peer} (h : p.Wise) (dt : Duration) : (p.judged dt).Advances (p.perform (.step dt)) := by
  obtain ⟨before, past⟩ := h.judged dt
  have expired := before.wise.expireRounds (p.advanced dt).heard.now
  have timed := expired.trans (expired.wise.runLinkTimers (Std.le_trans past expired.now))
  rw [perform_step, run_eq]
  exact timed.trans (timed.wise.flushLog _)

/-- Anything else a peer does on its own. -/
theorem Wise.perform {p : Peer} (h : p.Wise) {action : PeerAction} (isOwn : action.isOwn = true)
    (notStep : ∀ dt, action ≠ .step dt) : p.Advances (p.perform action) := by
  cases action with
  | step dt => exact absurd rfl (notStep dt)
  | submit | drainNotifications => exact h.still rfl
  | pause => exact h.pause
  | resume => exact h.resume
  | terminate => exact h.terminate
  | escape => exact h.escape
  | requeueOutbound => exact h.requeueOutbound
  | transport | pollTransmit => cases isOwn

/-! ## What has been reconciled -/

/-- What has been fetched has been reconciled in order or is still held, unless the session is over. -/
def Listens (p : Peer) (fetched : List SyncMessage) : Prop := p.isFinished = false →
  ∃ heeded, fetched = heeded ++ p.held ∧ p.remoteTime = heeded.foldl SyncMessage.heed .zero

theorem Listens.advance {p p' : Peer} {fetched : List SyncMessage} (h : p.Listens fetched) (advances : p.Advances p') :
    p'.Listens fetched := by
  intro on
  have before : p.isFinished = false := by
    cases ended : p.isFinished with
    | false => rfl
    | true => exact absurd (advances.finished ended) (by rw [on]; exact Bool.false_ne_true)
  obtain ⟨earlier, split, time⟩ := h before
  rcases advances.heeds with ended | ⟨heeded, split', time'⟩
  · rw [on] at ended
    cases ended
  · refine ⟨earlier ++ heeded, ?_, ?_⟩
    · rw [split, split', List.append_assoc]
    · rw [time', time, List.foldl_append]

theorem Listens.fetch {p p' : Peer} {fetched : List SyncMessage} (h : p.Listens fetched) (fetches : p.Fetches p') :
    p'.Listens (fetched ++ p.link.inbox.toList) := by
  intro on
  rw [isFinished, fetches.phase] at on
  obtain ⟨heeded, split, time⟩ := h on
  refine ⟨heeded, ?_, fetches.remoteTime.trans time⟩
  rw [split, fetches.held, List.append_assoc]

/-- The messages that a peer fetches in an action. -/
def fetches (p : Peer) : PeerAction → List SyncMessage
  | .step _ => p.link.inbox.toList
  | _ => []

/-- How a peer goes on when it fetches what has come. -/
structure Lives (p p' : Peer) (inbox : List SyncMessage) : Prop where
  wise : p'.Wise
  epoch : p'.epoch = p.epoch
  listens : ∀ {fetched}, p.Listens fetched → p'.Listens (fetched ++ inbox)
  speaks : ∀ e, e.link = p.link → ∃ e', e'.link = p'.link ∧ e'.fetched = e.fetched ++ inbox ∧
    (p.voice e).Goes (p'.voice e')

theorem Lives.advance {p q r : Peer} {inbox : List SyncMessage} (h : p.Lives q inbox) (advances : q.Advances r) :
    p.Lives r inbox where
  wise := advances.wise
  epoch := advances.epoch.trans h.epoch
  listens before := (h.listens before).advance advances
  speaks e same := by
    obtain ⟨e', same', fetched, goes⟩ := h.speaks e same
    obtain ⟨e'', same'', fetched', goes'⟩ := advances.speaks e' same'
    exact ⟨e'', same'', fetched'.trans fetched, goes.trans goes'⟩

/-- A step up to the moment when the rounds are looked at. -/
theorem Wise.livesJudged {p : Peer} (h : p.Wise) (dt : Duration) : p.Lives (p.judged dt) p.link.inbox.toList := by
  have advanced := h.advanced dt
  have received := advanced.wise.received
  have fetched : p.Lives (p.advanced dt).received p.link.inbox.toList := by
    refine ⟨received.wise, received.epoch.trans advanced.epoch, fun before => ?_, fun e same => ?_⟩
    · have listens : (p.advanced dt).Listens _ := before
      exact listens.fetch received
    · obtain ⟨e', same', fetched, goes⟩ := advanced.steps.speaks e same
      obtain ⟨e'', same'', fetched', goes'⟩ := received.speaks e' same'
      exact ⟨e'', same'', by rw [fetched', fetched]; rfl, goes.trans goes'⟩
  exact fetched.advance (h.judged dt).1

/-- **What a peer does on its own.** -/
theorem Wise.lives {p : Peer} (h : p.Wise) {action : PeerAction} (isOwn : action.isOwn = true) :
    p.Lives (p.perform action) (p.fetches action) := by
  have other : (∀ dt, action ≠ .step dt) → p.Lives (p.perform action) [] := fun notStep => by
    have still : p.Lives p [] := by
      refine ⟨h, rfl, fun before => ?_, fun e same => ⟨e, same, (List.append_nil _).symm, .refl⟩⟩
      rwa [List.append_nil]
    exact still.advance (h.perform isOwn notStep)
  cases action with
  | step dt => exact (h.livesJudged dt).advance (h.step dt)
  | submit | pause | resume | terminate | escape | requeueOutbound | drainNotifications | transport | pollTransmit =>
    exact other (fun _ same => by cases same)

/-! ## What the connection brings -/

/-- A peer whose link has taken a frame. -/
def took (p : Peer) (f : Frame) : Peer :=
  match p.link.onFrame f p.now with
  | (link, .ok ()) => { p with link := link }
  | (link, .error _) => { p with link := link }.count (fun s => { s with linkErrors := s.linkErrors + 1 })

theorem stance_took (p : Peer) (f : Frame) :
    (p.took f).stance = { p.stance with link := (p.link.onFrame f p.now).1 } := by
  unfold took
  split
  · rename_i same
    rw [same]
    rfl
  · rename_i same
    rw [same]
    rfl

theorem link_took (p : Peer) (f : Frame) : (p.took f).link = (p.link.onFrame f p.now).1 :=
  congrArg Stance.link (p.stance_took f)

theorem epoch_took (p : Peer) (f : Frame) : (p.took f).epoch = p.epoch := congrArg Stance.epoch (p.stance_took f)

theorem voice_took (p : Peer) (f : Frame) (e : LinkEnd) : (p.took f).voice e = ⟨e, p.horizon, p.finalFrames⟩ :=
  congrArg (fun s : Stance => (⟨e, s.clock.now.latest s.reconciler.clock.last, s.finals⟩ : Voice)) (p.stance_took f)

theorem Listens.took {p : Peer} {fetched : List SyncMessage} (h : p.Listens fetched) (f : Frame) :
    (p.took f).Listens fetched := by
  have stance := p.stance_took f
  simp only [Peer.stance, Stance.mk.injEq] at stance
  obtain ⟨-, -, -, held, remoteTime, phase, -⟩ := stance
  unfold Listens
  rw [isFinished, phase, held, remoteTime]
  exact h

/-- After a frame the session may start. -/
theorem Wise.starts {p : Peer} (h : p.Wise) (f : Frame) : (p.took f).Advances (p.onFrame f p.now) := by
  have stance := p.stance_took f
  simp only [Peer.stance, Stance.mk.injEq] at stance
  obtain ⟨-, -, -, -, -, phase, clock, reconciler, matching⟩ := stance
  have wise : (p.took f).Wise := by
    constructor
    · rw [phase, clock]
      exact h.waiting
    · rw [matching, reconciler]
      exact h.selections
  have now : (p.took f).now = p.now := congrArg SessionClock.now clock
  have starts := wise.maybeStart
  rw [now] at starts
  exact starts

end Peer

end Tandem
