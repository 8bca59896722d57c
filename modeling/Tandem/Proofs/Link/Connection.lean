import Tandem.Proofs.Link.Delivery
/-!
# The connection of a link

`Tandem.Proofs.Link.Stream` has what a link holds of the numbered messages.  This module has the rest of it, as far
as it decides when numbered frames go out and in which order.

* `Link.bond` is the view of the connection: who is at the other end, whether there is a connection, and how many gaps
  have been noted.  Only the events of the connection, a hello and a gap touch it.
* `Link.queued` are the numbers in the outbox, in order.  Messages outside the sequence leave them alone, a hello
  replaces them by the numbers of what is retained, and a message that is sent adds its own.
* `LinkState.stage` orders the states of a link; no operation goes back (`stage_*`).
-/

namespace Tandem

/-- What a link knows of its connection. -/
structure LinkBond where
  /-- Who is at the other end. -/
  remote : Option ParticipantId
  connected : Bool
  /-- How many gaps the tracker has noted. -/
  gaps : Nat
  /-- How many gaps are reported. -/
  reported : Nat

/-- The numbers of the numbered frames among some frames, in order. -/
def Frame.numbers (frames : List Frame) : List Nat :=
  (frames.filter (fun f => f.seq ≠ unsequenced)).map (fun f => f.seq.toNat)

namespace Frame

@[simp] theorem numbers_nil : numbers [] = [] := rfl

@[simp] theorem numbers_append (l l' : List Frame) : numbers (l ++ l') = numbers l ++ numbers l' := by
  simp [numbers]

theorem numbers_of_outside {l : List Frame} (outside : ∀ f ∈ l, f.seq = unsequenced) : numbers l = [] := by
  rw [numbers, List.map_eq_nil_iff, List.filter_eq_nil_iff]
  intro f mem
  simp [outside f mem]

theorem numbers_cons_of_outside {f : Frame} (outside : f.seq = unsequenced) (l : List Frame) :
    numbers (f :: l) = numbers l := by
  simp [numbers, outside]

theorem numbers_cons_of_numbered {f : Frame} (numbered : f.seq ≠ unsequenced) (l : List Frame) :
    numbers (f :: l) = f.seq.toNat :: numbers l := by
  simp [numbers, numbered]

/-- Stamping frames anew leaves their numbers. -/
theorem numbers_map_restamped (ack : UInt64) (flags : Frame → FrameFlags) (l : List Frame) :
    numbers (l.map (fun f => f.restamped ack (flags f))) = numbers l := by
  induction l with
  | nil => rfl
  | cons f rest ih =>
    have same : (f.restamped ack (flags f)).seq = f.seq := rfl
    by_cases outside : f.seq = unsequenced
    · rw [List.map_cons, numbers_cons_of_outside (same.trans outside), numbers_cons_of_outside outside, ih]
    · rw [List.map_cons, numbers_cons_of_numbered (same ▸ outside), numbers_cons_of_numbered outside, ih, same]

end Frame

namespace Link

/-- The connection of a link. -/
def bond (l : Link) : LinkBond := ⟨l.remote, l.connected, l.received.gaps, l.stats.gaps⟩

/-- The numbers of the frames that are ready to be sent. -/
def queued (l : Link) : List Nat := Frame.numbers l.outbox.toList

/-! ## What leaves the connection alone -/

@[simp] theorem bond_enter (l : Link) (state : LinkState) (now : SessionTime) : (l.enter state now).bond = l.bond := by
  unfold enter
  split <;> rfl

@[simp] theorem bond_revive (l : Link) (now : SessionTime) : (l.revive now).bond = l.bond := by
  unfold revive
  split
  · exact bond_enter l _ now
  · rfl

@[simp] theorem bond_pushUnsequenced (l : Link) (m : SyncMessage) (now : SessionTime) :
    (l.pushUnsequenced m now).bond = l.bond := by
  unfold pushUnsequenced
  split
  · split <;> rfl
  · rfl

@[simp] theorem bond_beat (l : Link) (now : SessionTime) : (l.beat now).bond = l.bond := by
  unfold beat
  split
  · exact bond_pushUnsequenced _ _ now
  · rfl

@[simp] theorem bond_close (l : Link) (now : SessionTime) : (l.close now).bond = l.bond := bond_enter l .closed now

@[simp] theorem bond_releaseAcked (l : Link) (ack : UInt64) : (l.releaseAcked ack).bond = l.bond := rfl

@[simp] theorem bond_resend (l : Link) (now : SessionTime) : (l.resend now).bond = l.bond := by
  unfold resend
  split <;> rfl

@[simp] theorem bond_requeue (l : Link) (now : SessionTime) : (l.requeue now).bond = l.bond := by
  unfold requeue
  split
  · exact bond_resend l now
  · rfl

@[simp] theorem bond_tick (l : Link) (now : SessionTime) : (l.tick now).1.bond = l.bond := by
  unfold tick
  cases l.state with
  | closed => rfl
  | connecting => rfl
  | established =>
    dsimp only
    rw [bond_beat]
    split
    · exact bond_enter l _ now
    · rfl
  | degraded =>
    dsimp only
    split
    · exact bond_enter l .closed now
    · exact bond_beat l now

/-! ## What touches the connection -/

theorem bond_onConnected {l : Link} (isOpen : l.state ≠ .closed) (now : SessionTime) :
    (l.onConnected now).bond = { l.bond with connected := true } := by
  unfold onConnected
  rw [if_neg isOpen]
  by_cases known : l.remote.isSome = true
  · simp only [known, if_true, bond_pushUnsequenced]
    rfl
  · simp only [known, bond_pushUnsequenced]
    rfl

theorem bond_onDisconnected (l : Link) (now : SessionTime) :
    (l.onDisconnected now).bond = { l.bond with connected := false } := by
  unfold onDisconnected
  cases connected : l.connected with
  | false =>
    rw [if_pos (by rfl)]
    simp [bond, connected]
  | true =>
    rw [if_neg (by decide)]
    dsimp only
    split
    · exact bond_enter { l with connected := false, outbox := .empty } _ now
    · rfl

theorem bond_noteGap (l : Link) (now : SessionTime) :
    (l.noteGap now).bond = { l.bond with gaps := l.bond.gaps + 1, reported := l.bond.reported + 1 } :=
  bond_enter _ .degraded now

theorem state_enter (l : Link) (state : LinkState) (now : SessionTime) : (l.enter state now).state = state := by
  unfold enter
  split
  · assumption
  · rfl

theorem state_resend (l : Link) (now : SessionTime) : (l.resend now).state = l.state := by
  unfold resend
  split <;> rfl

/-! ## The queue -/

@[simp] theorem queued_pushUnsequenced (l : Link) (m : SyncMessage) (now : SessionTime) :
    (l.pushUnsequenced m now).queued = l.queued := by
  unfold pushUnsequenced
  cases written : Frame.ofMessage l.session l.localId unsequenced m with
  | error fault => rfl
  | ok f =>
    have outside : f.seq = unsequenced := (Frame.message_ofMessage written).2.1
    dsimp only
    split
    · rw [queued, queued, Fifo.toList_push, Frame.numbers_append, Frame.numbers_cons_of_outside outside,
        Frame.numbers_nil, List.append_nil]
    · rfl

@[simp] theorem queued_enter (l : Link) (state : LinkState) (now : SessionTime) :
    (l.enter state now).queued = l.queued := by
  rw [queued, outbox_enter]
  rfl

@[simp] theorem queued_revive (l : Link) (now : SessionTime) : (l.revive now).queued = l.queued := by
  rw [queued, outbox_revive]
  rfl

@[simp] theorem queued_beat (l : Link) (now : SessionTime) : (l.beat now).queued = l.queued := by
  unfold beat
  split
  · exact queued_pushUnsequenced _ _ now
  · rfl

theorem queued_tick (l : Link) (now : SessionTime) :
    (l.tick now).1.queued = l.queued ∨ (l.tick now).1.state = .closed ∧ (l.tick now).1.queued = [] := by
  unfold tick
  cases state : l.state with
  | closed => exact Or.inl rfl
  | connecting => exact Or.inl rfl
  | established =>
    left
    dsimp only
    rw [queued_beat]
    split
    · exact queued_enter l _ now
    · rfl
  | degraded =>
    dsimp only
    split
    · exact Or.inr ⟨state_enter l .closed now, rfl⟩
    · exact Or.inl (queued_beat l now)

/-- What is retained is queued behind the messages outside the sequence. -/
theorem outbox_resend {l : Link} (connected : l.connected = true) (now : SessionTime) : (l.resend now).outbox.toList =
    l.outbox.toList.filter (fun f => f.seq = unsequenced) ++
      l.stream.retained.map (fun f => f.restamped 0 (FrameFlags.none.setResend true)) := by
  unfold resend
  rw [if_neg (by simp [connected]), outbox_count, Fifo.toList_ofList]
  rfl

/-- Whatever was queued before, what is retained is queued then. -/
theorem queued_resend {l : Link} (connected : l.connected = true) (now : SessionTime) :
    (l.resend now).queued = Frame.numbers l.stream.retained := by
  rw [queued, outbox_resend connected, Frame.numbers_append, Frame.numbers_of_outside, List.nil_append]
  · exact Frame.numbers_map_restamped 0 (fun _ => FrameFlags.none.setResend true) l.stream.retained
  · intro f mem
    simpa using (List.mem_filter.mp mem).2

theorem queued_requeue (l : Link) (now : SessionTime) : (l.requeue now).queued = l.queued ∨
    (l.requeue now).queued = Frame.numbers (l.requeue now).stream.retained := by
  rw [stream_requeue]
  unfold requeue
  split
  · refine Or.inr (queued_resend ?_ now)
    simp_all [canTransmit]
  · exact Or.inl rfl

/-- A message that is sent while frames may go out is queued last. -/
theorem queued_enqueue {l : Link} {f : Frame} (may : l.canTransmit = true) (numbered : f.seq ≠ unsequenced)
    (now : SessionTime) : (l.enqueue f now).queued = l.queued ++ [f.seq.toNat] := by
  have pushed : (l.enqueue f now).outbox = l.outbox.push f := if_pos may
  rw [queued, pushed, Fifo.toList_push, Frame.numbers_append, Frame.numbers_cons_of_numbered numbered]
  rfl

end Link

/-! ## Taking a frame -/

/-- Whether the verdict is that frames are missing before the one that has come. -/
def Verdict.isGap : Except Fault Unit → Bool
  | .error (.outOfSequence _ _) => true
  | _ => false

namespace Link

/-- What taking a frame can do to the connection and the queue of a link. -/
inductive Handles (l : Link) (f : Frame) (after : Link × Except Fault Unit) : Prop where
  /-- The connection and the queue stay as they are. -/
  | aside (bond : after.1.bond = l.bond) (queued : after.1.queued = l.queued) (inPlace : Verdict.isGap after.2 = false)
      (unmet : l.state ≠ .closed → f.seq = unsequenced → ∀ participant resumeFrom,
        f.message = .ok (.hello participant resumeFrom) → after.2 ≠ .ok ())
  | unreadable {fault : Fault} (bond : after.1.bond = l.bond) (queued : after.1.queued = l.queued)
      (carried : f.message = .error fault) (verdict : after.2 = .error fault)
  /-- A hello is believed, and what is retained is queued again. -/
  | greeted {participant : ParticipantId} {resumeFrom : UInt64} (isOpen : l.state ≠ .closed)
      (outside : f.seq = unsequenced) (carried : f.message = .ok (.hello participant resumeFrom))
      (established : after.1.state = .established) (bond : after.1.bond = { l.bond with remote := some participant })
      (queued : l.connected = true → after.1.queued = Frame.numbers after.1.stream.retained)
      (verdict : after.2 = .ok ())
  /-- Frames are missing before this one. -/
  | gap (isOpen : l.state ≠ .closed) (numbered : f.seq ≠ unsequenced)
      (ahead : f.seq ≠ l.receivedThrough + 1 ∧ ¬ f.seq < l.receivedThrough + 1)
      (bond : after.1.bond = { l.bond with gaps := l.bond.gaps + 1, reported := l.bond.reported + 1 })
      (queued : after.1.queued = l.queued) (verdict : after.2 = .error (.outOfSequence (l.receivedThrough + 1) f.seq))

/-- The link when a frame has been noted, before its message is taken. -/
def heard (l : Link) (ack : UInt64) (now : SessionTime) : Link := ({ l with lastHeard := now } : Link).releaseAcked ack

@[simp] theorem stream_heard (l : Link) (ack : UInt64) (now : SessionTime) :
    (l.heard ack now).stream = l.stream.release ack := stream_releaseAcked _ ack

/-- A frame that can be read, at a link that is open. -/
theorem onFrame_eq {l : Link} {f : Frame} {now : SessionTime} {m : SyncMessage} (session : f.header.session = l.session)
    (isOpen : l.state ≠ .closed) (carried : f.message = .ok m) : l.onFrame f now =
      if f.seq = unsequenced then (l.heard f.header.ack now).onLinkMessage m now
      else (l.heard f.header.ack now).onSequenced f.seq m now := by
  unfold onFrame
  rw [if_neg (not_not_intro session), if_neg isOpen, carried]
  rfl

/-- A frame outside the sequence: a hello that is not refused is believed. -/
theorem handles_outside {l : Link} {f : Frame} {m : SyncMessage} (isOpen : l.state ≠ .closed)
    (outside : f.seq = unsequenced) (carried : f.message = .ok m) (now : SessionTime) :
    l.Handles f ((l.heard f.header.ack now).onLinkMessage m now) := by
  have unmet : ∀ verdict : Except Fault Unit, verdict ≠ .ok () → l.state ≠ .closed → f.seq = unsequenced →
      ∀ participant resumeFrom, f.message = .ok (.hello participant resumeFrom) → verdict ≠ .ok () :=
    fun _ refused _ _ _ _ _ => refused
  cases m with
  | hello participant resumeFrom =>
    unfold onLinkMessage
    dsimp only
    split
    · exact .aside rfl rfl rfl (unmet _ (by simp))
    · refine .greeted isOpen outside carried ?_ ?_ (fun connected => ?_) rfl
      · rw [state_resend, state_enter]
      · rw [bond_resend, bond_enter]
        rfl
      · rw [stream_resend, queued_resend]
        have known : (((({ l.heard f.header.ack now with remote := some participant } : Link).releaseAcked
            resumeFrom).enter .established now).bond).connected = l.connected := by
          rw [bond_enter]
          rfl
        exact known.trans connected
  | heartbeat time =>
    refine .aside (bond_revive _ now) (queued_revive _ now) rfl ?_
    intro _ _ participant resumeFrom hello
    rw [carried] at hello
    cases hello
  | delta | forward | start | pause | resume | finish => exact .aside rfl rfl rfl (unmet _ (by simp [onLinkMessage]))

/-- A numbered frame: the next one, one that has been received before, or one ahead of a gap. -/
theorem handles_numbered {l : Link} {f : Frame} (isOpen : l.state ≠ .closed) (numbered : f.seq ≠ unsequenced)
    (m : SyncMessage) (now : SessionTime) : l.Handles f ((l.heard f.header.ack now).onSequenced f.seq m now) := by
  by_cases next : f.seq = l.receivedThrough + 1
  · rw [onSequenced_next (l := l.heard f.header.ack now) next]
    exact .aside (bond_revive _ now) (queued_revive _ now) rfl (fun _ outside => absurd outside numbered)
  · by_cases before : f.seq < l.receivedThrough + 1
    · rw [onSequenced_before (l := l.heard f.header.ack now) before]
      exact .aside rfl rfl rfl (fun _ outside => absurd outside numbered)
    · rw [onSequenced_ahead (l := l.heard f.header.ack now) next before]
      refine .gap isOpen numbered ⟨next, before⟩ ?_ ?_ rfl
      · rw [bond_pushUnsequenced, bond_noteGap]
        rfl
      · rw [queued_pushUnsequenced, noteGap, queued_enter]
        rfl

/-- **What taking a frame does** to the connection and the queue. -/
theorem handles_onFrame (l : Link) (f : Frame) (now : SessionTime) : l.Handles f (l.onFrame f now) := by
  by_cases foreign : f.header.session ≠ l.session
  · unfold onFrame
    rw [if_pos foreign]
    exact .aside rfl rfl rfl (fun _ _ _ _ _ => by simp)
  have session : f.header.session = l.session := Decidable.of_not_not foreign
  by_cases closed : l.state = .closed
  · unfold onFrame
    rw [if_neg foreign, if_pos closed]
    exact .aside rfl rfl rfl (fun isOpen => absurd closed isOpen)
  cases carried : f.message with
  | error fault =>
    unfold onFrame
    rw [if_neg foreign, if_neg closed, carried]
    exact .unreadable rfl rfl carried rfl
  | ok m =>
    rw [onFrame_eq session closed carried]
    by_cases outside : f.seq = unsequenced
    · rw [if_pos outside]
      exact handles_outside closed outside carried now
    · rw [if_neg outside]
      exact handles_numbered closed outside m now

/-- A frame either leaves the other end unnamed or is a hello that names it. -/
theorem remote_onFrame (l : Link) (f : Frame) (now : SessionTime) :
    (l.onFrame f now).1.bond.remote = l.bond.remote ∨ ∃ participant resumeFrom,
      f.message = .ok (.hello participant resumeFrom) ∧ (l.onFrame f now).1.bond.remote = some participant := by
  cases l.handles_onFrame f now with
  | aside bond | unreadable bond => exact Or.inl (congrArg LinkBond.remote bond)
  | greeted _ _ carried _ bond => exact Or.inr ⟨_, _, carried, congrArg LinkBond.remote bond⟩
  | gap _ _ _ bond =>
    left
    rw [bond]

end Link

/-! ## States are left in one direction -/

/-- How far a link has come: connecting, open, closed. -/
def LinkState.stage : LinkState → Nat
  | .connecting => 0
  | .established | .degraded => 1
  | .closed => 2

/-- A closed link has come all the way. -/
theorem LinkState.stage_lt_two {state : LinkState} : state.stage < 2 ↔ state ≠ .closed := by
  cases state <;> decide

/-- A state that comes before an open one is open. -/
theorem LinkState.isOpen_of_stage {before after : LinkState} (stage : before.stage ≤ after.stage)
    (isOpen : after ≠ .closed) : before ≠ .closed :=
  LinkState.stage_lt_two.mp (Nat.lt_of_le_of_lt stage (LinkState.stage_lt_two.mpr isOpen))

namespace Link

/-- A link that is connected and open, knows the other end and has talked to it may send numbered frames. -/
theorem canTransmit_of_stage {l : Link} (connected : l.bond.connected = true) (remote : l.bond.remote.isSome = true)
    (talks : 1 ≤ l.state.stage) (isOpen : l.state ≠ .closed) : l.canTransmit = true := by
  have connected : l.connected = true := connected
  have remote : l.remote.isSome = true := remote
  unfold canTransmit
  rw [connected, remote]
  cases state : l.state with
  | connecting =>
    rw [state] at talks
    cases talks
  | established | degraded => rfl
  | closed => exact absurd state isOpen

theorem state_pushUnsequenced (l : Link) (m : SyncMessage) (now : SessionTime) :
    (l.pushUnsequenced m now).state = l.state := by
  unfold pushUnsequenced
  split
  · split <;> rfl
  · rfl

theorem state_beat (l : Link) (now : SessionTime) : (l.beat now).state = l.state := by
  unfold beat
  split
  · exact state_pushUnsequenced _ _ now
  · rfl

theorem state_onConnected (l : Link) (now : SessionTime) : (l.onConnected now).state = l.state := by
  unfold onConnected
  split
  · rfl
  · dsimp only
    rw [state_pushUnsequenced]
    split <;> rfl

/-- An open link can be established or degraded at any time. -/
theorem stage_enter {l : Link} (isOpen : l.state ≠ .closed) {state : LinkState} (talking : state.stage = 1)
    (now : SessionTime) : l.state.stage ≤ (l.enter state now).state.stage := by
  rw [state_enter, talking]
  exact Nat.le_of_lt_succ (LinkState.stage_lt_two.mpr isOpen)

theorem stage_close (l : Link) (now : SessionTime) : l.state.stage ≤ (l.close now).state.stage := by
  have closed : (l.close now).state = .closed := state_enter l .closed now
  rw [closed]
  cases l.state <;> decide

theorem stage_revive (l : Link) (now : SessionTime) : l.state.stage ≤ (l.revive now).state.stage := by
  unfold revive
  cases state : l.state with
  | degraded =>
    rw [← state]
    split
    · exact stage_enter (by simp [state]) rfl now
    · exact Nat.le_refl _
  | connecting | established | closed => simp [state]

theorem stage_onDisconnected (l : Link) (now : SessionTime) :
    l.state.stage ≤ (l.onDisconnected now).state.stage := by
  unfold onDisconnected
  split
  · exact Nat.le_refl _
  · dsimp only
    split
    · rename_i established
      rw [state_enter, established]
      exact Nat.le_refl _
    · exact Nat.le_refl _

theorem stage_requeue (l : Link) (now : SessionTime) : l.state.stage ≤ (l.requeue now).state.stage := by
  unfold requeue
  split
  · exact Nat.le_of_eq (congrArg LinkState.stage (state_resend l now).symm)
  · exact Nat.le_refl _

theorem stage_tick (l : Link) (now : SessionTime) : l.state.stage ≤ (l.tick now).1.state.stage := by
  unfold tick
  cases state : l.state with
  | closed => exact Nat.le_of_eq (congrArg LinkState.stage state.symm)
  | connecting => exact Nat.zero_le _
  | established =>
    dsimp only
    rw [state_beat]
    split
    · rw [state_enter]
      exact Nat.le_refl _
    · exact Nat.le_of_eq (congrArg LinkState.stage state.symm)
  | degraded =>
    dsimp only
    split
    · have closed : (l.enter .closed now).state = .closed := state_enter l .closed now
      rw [closed]
      decide
    · exact Nat.le_of_eq (congrArg LinkState.stage ((state_beat l now).trans state).symm)

theorem stage_onSequenced {l : Link} (isOpen : l.state ≠ .closed) (seq : UInt64) (m : SyncMessage)
    (now : SessionTime) : l.state.stage ≤ (l.onSequenced seq m now).1.state.stage := by
  by_cases next : seq = l.receivedThrough + 1
  · rw [onSequenced_next next]
    exact stage_revive { l with received := { l.received with highest := seq } } now
  · by_cases before : seq < l.receivedThrough + 1
    · rw [onSequenced_before before]
      exact Nat.le_refl _
    · rw [onSequenced_ahead next before, state_pushUnsequenced, noteGap, state_enter]
      exact Nat.le_of_lt_succ (LinkState.stage_lt_two.mpr isOpen)

theorem stage_onLinkMessage {l : Link} (isOpen : l.state ≠ .closed) (m : SyncMessage) (now : SessionTime) :
    l.state.stage ≤ (l.onLinkMessage m now).1.state.stage := by
  cases m with
  | hello participant resumeFrom =>
    unfold onLinkMessage
    dsimp only
    split
    · exact Nat.le_refl _
    · rw [state_resend, state_enter]
      exact Nat.le_of_lt_succ (LinkState.stage_lt_two.mpr isOpen)
  | heartbeat time => exact stage_revive { l with peerTime := l.peerTime.latest time } now
  | delta | forward | start | pause | resume | finish => exact Nat.le_refl _

theorem stage_onFrame (l : Link) (f : Frame) (now : SessionTime) :
    l.state.stage ≤ (l.onFrame f now).1.state.stage := by
  unfold onFrame
  split
  · exact Nat.le_refl _
  · split
    · exact Nat.le_refl _
    · rename_i isOpen
      dsimp only
      cases f.message with
      | error fault => exact Nat.le_refl _
      | ok m =>
        dsimp only
        split
        · exact stage_onLinkMessage (l := l.heard f.header.ack now) isOpen m now
        · exact stage_onSequenced (l := l.heard f.header.ack now) isOpen f.seq m now

end Link

namespace LinkEnd

/-- **No move goes back** to an earlier stage. -/
theorem stage_perform (e : LinkEnd) (arriving : List Frame) (now : SessionTime) (action : LinkAction) :
    e.link.state.stage ≤ (e.perform arriving now action).link.state.stage := by
  cases action with
  | send m =>
    dsimp only [perform]
    rcases e.link.send_cases m now with ⟨fault, sent⟩ | ⟨-, sent⟩ | ⟨-, -, f, -, sent⟩
    · exact Nat.le_of_eq (by rw [sent])
    · rw [sent]
      exact Nat.le_of_eq (congrArg LinkState.stage (Link.state_pushUnsequenced e.link m now).symm)
    · rw [sent]
      exact Nat.le_refl _
  | tick => exact Link.stage_tick e.link now
  | connected => exact Nat.le_of_eq (congrArg LinkState.stage (Link.state_onConnected e.link now).symm)
  | disconnected => exact Link.stage_onDisconnected e.link now
  | requeue => exact Link.stage_requeue e.link now
  | close => exact Link.stage_close e.link now
  | drainOutbound | drainInbound => exact Nat.le_refl _
  | deliver place =>
    dsimp only [perform]
    cases arriving[place]? with
    | none => exact Nat.le_refl _
    | some f => exact Link.stage_onFrame e.link f now

end LinkEnd

end Tandem
