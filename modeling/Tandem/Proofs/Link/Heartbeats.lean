import Tandem.Proofs.Link.Connection
import Tandem.Proofs.Session.Stamps
/-!
# The heartbeats of a link

A heartbeat tells the session time of its sender.  It travels outside the sequence: it is neither numbered nor kept,
and the receiver notes the latest time that it has been told, whatever else has arrived.

`Link.pulse` is the view of a link that heartbeats concern: the time noted, and the times in the heartbeats that are
ready to be sent.  Only the timer queues a heartbeat, and only when nothing else is ready to be sent
(`Link.pulse_tick`); only a heartbeat that is taken changes the time noted (`Link.pulse_onFrame`).
-/

namespace Tandem

/-- The session time in a heartbeat, which travels outside the sequence. -/
def Frame.beat? (f : Frame) : Option SessionTime :=
  if f.seq = unsequenced then
    match f.message with
    | .ok (.heartbeat time) => some time
    | _ => none
  else none

/-- The session times in the heartbeats among some frames, in order. -/
def Frame.beats (frames : List Frame) : List SessionTime := frames.filterMap beat?

/-- What concerns the heartbeats of a link. -/
structure LinkPulse where
  /-- The latest time in a heartbeat of the peer. -/
  peerTime : SessionTime
  /-- The times in the heartbeats that are ready to be sent. -/
  beats : List SessionTime

namespace Frame

theorem beat?_eq_some {f : Frame} {t : SessionTime} :
    f.beat? = some t ↔ f.seq = unsequenced ∧ f.message = .ok (.heartbeat t) := by
  unfold beat?
  by_cases outside : f.seq = unsequenced
  · rw [if_pos outside]
    split
    · rename_i carried
      rw [carried]
      simp [outside]
    · rename_i other
      simpa [outside] using other t
  · simp [outside]

theorem beat?_eq_none {f : Frame} (silent : ∀ t, f.message ≠ .ok (.heartbeat t)) : f.beat? = none := by
  cases beat : f.beat? with
  | none => rfl
  | some t => exact absurd (beat?_eq_some.mp beat).2 (silent t)

theorem beat?_of_numbered {f : Frame} (numbered : f.seq ≠ unsequenced) : f.beat? = none := if_neg numbered

/-- What is written as another message is no heartbeat. -/
theorem beat?_ofMessage {session : SessionId} {sender : ParticipantId} {seq : UInt64} {m : SyncMessage} {f : Frame}
    (written : Frame.ofMessage session sender seq m = .ok f) (silent : ∀ t, m ≠ .heartbeat t) : f.beat? = none := by
  refine beat?_eq_none fun t carried => ?_
  rw [(Frame.message_ofMessage written).2.2, Except.ok.injEq] at carried
  cases m with
  | heartbeat time => exact silent time rfl
  | delta | forward | hello | start | pause | resume | finish => cases carried

@[simp] theorem beats_append (l l' : List Frame) : beats (l ++ l') = beats l ++ beats l' := List.filterMap_append

theorem beats_of_silent {l : List Frame} (silent : ∀ f ∈ l, f.beat? = none) : beats l = [] :=
  List.filterMap_eq_nil_iff.mpr silent

/-- Stamping frames anew leaves their messages. -/
theorem beats_map_restamped (ack : UInt64) (flags : Frame → FrameFlags) (l : List Frame) :
    beats (l.map (fun f => f.restamped ack (flags f))) = beats l := by
  rw [beats, List.filterMap_map]
  rfl

theorem mem_beats {l : List Frame} {t : SessionTime} : t ∈ beats l ↔ ∃ f ∈ l, f.beat? = some t := List.mem_filterMap

end Frame

namespace Link

/-- What concerns the heartbeats of a link. -/
def pulse (l : Link) : LinkPulse := ⟨l.peerTime, Frame.beats l.outbox.toList⟩

/-! ## What leaves heartbeats alone -/

@[simp] theorem pulse_count (l : Link) (f : LinkStats → LinkStats) : (l.count f).pulse = l.pulse := rfl

@[simp] theorem pulse_enter (l : Link) (state : LinkState) (now : SessionTime) :
    (l.enter state now).pulse = l.pulse := by
  unfold enter
  split <;> rfl

@[simp] theorem pulse_revive (l : Link) (now : SessionTime) : (l.revive now).pulse = l.pulse := by
  unfold revive
  split
  · exact pulse_enter l _ now
  · rfl

theorem pulse_drainOutbound (l : Link) : l.drainOutbound.2.pulse = ⟨l.pulse.peerTime, []⟩ ∧
    Frame.beats l.drainOutbound.1 = l.pulse.beats :=
  ⟨rfl, Frame.beats_map_restamped l.receivedThrough _ l.outbox.toList⟩

theorem pulse_close (l : Link) (now : SessionTime) : (l.close now).pulse = ⟨l.pulse.peerTime, []⟩ :=
  congrArg (fun p : LinkPulse => (⟨p.peerTime, []⟩ : LinkPulse)) (pulse_enter l .closed now)

theorem pulse_pushUnsequenced {m : SyncMessage} (silent : ∀ t, m ≠ .heartbeat t) (l : Link) (now : SessionTime) :
    (l.pushUnsequenced m now).pulse = l.pulse := by
  unfold pushUnsequenced
  cases written : Frame.ofMessage l.session l.localId unsequenced m with
  | error fault => rfl
  | ok f =>
    dsimp only
    split
    · have none : Frame.beats [f] = [] := by
        rw [Frame.beats_of_silent]
        intro g mem
        rw [List.mem_singleton.mp mem]
        exact Frame.beat?_ofMessage written silent
      rw [pulse, pulse, Fifo.toList_push, Frame.beats_append, none, List.append_nil]
    · rfl

theorem silent_greeting (l : Link) (t : SessionTime) : l.greeting ≠ .heartbeat t := by
  intro same
  cases same

/-- A numbered message is no heartbeat. -/
theorem pulse_enqueue {l : Link} {m : SyncMessage} {f : Frame} {seq : UInt64} (isLocal : m.isLinkLocal = false)
    (written : Frame.ofMessage l.session l.localId seq m = .ok f) (now : SessionTime) :
    (l.enqueue f now).pulse = l.pulse := by
  have silent : Frame.beats [f] = [] := by
    rw [Frame.beats_of_silent]
    intro g mem
    rw [List.mem_singleton.mp mem]
    refine Frame.beat?_ofMessage written fun t same => ?_
    rw [same] at isLocal
    exact absurd isLocal (by simp [SyncMessage.isLinkLocal])
  unfold enqueue
  dsimp only
  rw [pulse_count, pulse]
  dsimp only
  split
  · rw [Fifo.toList_push, Frame.beats_append, silent, List.append_nil]
    rfl
  · rfl

/-- Frames that are sent again are no heartbeats, and only numbered ones make room for them. -/
theorem pulse_resend {l : Link} (silent : ∀ f ∈ l.stream.retained, f.beat? = none) (now : SessionTime) :
    (l.resend now).pulse = l.pulse := by
  cases connected : l.connected with
  | false =>
    unfold resend
    rw [if_pos (by simp [connected])]
  | true =>
    have peerTime : (l.resend now).peerTime = l.peerTime := by
      unfold resend
      split <;> rfl
    have again : Frame.beats (l.stream.retained.map (fun f => f.restamped 0 (FrameFlags.none.setResend true))) = [] :=
      (Frame.beats_map_restamped 0 (fun _ => FrameFlags.none.setResend true) _).trans (Frame.beats_of_silent silent)
    -- Making room for what is sent again only takes numbered frames away, and those are no heartbeats.
    have kept : ∀ frames : List Frame,
        Frame.beats (frames.filter (fun f => f.seq = unsequenced)) = Frame.beats frames := by
      intro frames
      rw [Frame.beats, List.filterMap_filter]
      refine congrArg (List.filterMap · frames) (funext fun f => ?_)
      by_cases outside : f.seq = unsequenced
      · simp [outside]
      · simp [outside, Frame.beat?_of_numbered outside]
    rw [pulse, peerTime, outbox_resend connected, Frame.beats_append, again, List.append_nil, kept]
    rfl

theorem pulse_requeue {l : Link} (silent : ∀ f ∈ l.stream.retained, f.beat? = none) (now : SessionTime) :
    (l.requeue now).pulse = l.pulse := by
  unfold requeue
  split
  · exact pulse_resend silent now
  · rfl

/-! ## What the connection and the timer do to heartbeats -/

theorem pulse_onConnected (l : Link) (now : SessionTime) :
    (l.onConnected now).pulse = l.pulse ∨ (l.onConnected now).pulse = ⟨l.pulse.peerTime, []⟩ := by
  unfold onConnected
  split
  · exact Or.inl rfl
  · right
    dsimp only
    rw [pulse_pushUnsequenced (silent_greeting _)]
    split <;> rfl

theorem pulse_onDisconnected (l : Link) (now : SessionTime) :
    (l.onDisconnected now).pulse = l.pulse ∨ (l.onDisconnected now).pulse = ⟨l.pulse.peerTime, []⟩ := by
  unfold onDisconnected
  split
  · exact Or.inl rfl
  · right
    dsimp only
    split
    · exact pulse_enter { l with connected := false, outbox := .empty } _ now
    · rfl

/-- A heartbeat is queued only when nothing else is ready to be sent. -/
theorem pulse_beat (l : Link) (now : SessionTime) : (l.beat now).pulse = l.pulse ∨
    l.outbox.toList = [] ∧ (l.beat now).pulse = ⟨l.pulse.peerTime, [now]⟩ := by
  unfold beat
  split
  · rename_i due
    simp only [Bool.and_eq_true, Fifo.isEmpty_iff] at due
    unfold pushUnsequenced
    split
    · rename_i f written
      obtain ⟨-, outside, carried⟩ := Frame.message_ofMessage written
      have beat : f.beat? = some now := Frame.beat?_eq_some.mpr ⟨outside, carried⟩
      split
      · right
        have queued : (l.outbox.push f).toList = [f] := by rw [Fifo.toList_push, due.1.2, List.nil_append]
        refine ⟨due.1.2, ?_⟩
        rw [pulse, outbox_count, queued, Frame.beats, List.filterMap_cons_some beat]
        rfl
      · exact Or.inl rfl
    · exact Or.inl rfl
  · exact Or.inl rfl

/-- **What the timer does**: it leaves the heartbeats alone, closes the link, or queues one heartbeat and nothing
else. -/
theorem pulse_tick (l : Link) (now : SessionTime) : (l.tick now).1.pulse = l.pulse ∨
    (l.tick now).1.pulse = ⟨l.pulse.peerTime, []⟩ ∨
    l.state ≠ .closed ∧ l.outbox.toList = [] ∧ (l.tick now).1.pulse = ⟨l.pulse.peerTime, [now]⟩ := by
  unfold tick
  cases state : l.state with
  | closed | connecting => exact Or.inl rfl
  | established =>
    dsimp only
    split
    · rcases pulse_beat (l.enter .degraded now) now with same | ⟨empty, one⟩
      · exact Or.inl (same.trans (pulse_enter l _ now))
      · rw [outbox_enter] at empty
        rw [pulse_enter] at one
        exact Or.inr (Or.inr ⟨by decide, empty, one⟩)
    · exact (pulse_beat l now).imp_right fun one => Or.inr ⟨by decide, one⟩
  | degraded =>
    dsimp only
    split
    · refine Or.inr (Or.inl ?_)
      exact congrArg (fun p : LinkPulse => (⟨p.peerTime, []⟩ : LinkPulse)) (pulse_enter l .closed now)
    · exact (pulse_beat l now).imp_right fun one => Or.inr ⟨by decide, one⟩

/-! ## Taking a frame -/

/-- **What a frame does**: it queues no heartbeat, and only a heartbeat changes the time noted. -/
theorem pulse_onFrame {l : Link} (silent : ∀ f ∈ l.stream.retained, f.beat? = none) (f : Frame) (now : SessionTime) :
    (l.onFrame f now).1.pulse = l.pulse ∨
    ∃ t, f.beat? = some t ∧ (l.onFrame f now).1.pulse = ⟨l.pulse.peerTime.latest t, l.pulse.beats⟩ := by
  by_cases foreign : f.header.session ≠ l.session
  · left
    unfold onFrame
    rw [if_pos foreign]
  have session : f.header.session = l.session := Decidable.of_not_not foreign
  by_cases closed : l.state = .closed
  · left
    unfold onFrame
    rw [if_neg foreign, if_pos closed]
  cases carried : f.message with
  | error fault =>
    left
    unfold onFrame
    rw [if_neg foreign, if_neg closed, carried]
    rfl
  | ok m =>
    rw [onFrame_eq session closed carried]
    by_cases outside : f.seq = unsequenced
    · rw [if_pos outside]
      cases m with
      | heartbeat t =>
        right
        refine ⟨t, Frame.beat?_eq_some.mpr ⟨outside, carried⟩, ?_⟩
        exact pulse_revive { l.heard f.header.ack now with peerTime := l.peerTime.latest t } now
      | hello participant resumeFrom =>
        left
        unfold onLinkMessage
        dsimp only
        split
        · rfl
        · rw [pulse_resend, pulse_enter]
          · rfl
          · -- What the hello has the link send again is part of what it retained.
            intro g mem
            rw [stream_enter, stream_releaseAcked] at mem
            have named : ({ l.heard f.header.ack now with remote := some participant } : Link).stream =
                l.stream.release f.header.ack := stream_heard l f.header.ack now
            rw [named] at mem
            exact silent g (List.dropWhile_subset _ (List.dropWhile_subset _ mem))
      | delta | forward | start | pause | resume | finish => exact Or.inl rfl
    · left
      rw [if_neg outside]
      by_cases next : f.seq = l.receivedThrough + 1
      · rw [onSequenced_next (l := l.heard f.header.ack now) next]
        exact pulse_revive { l.heard f.header.ack now with received := _ } now
      · by_cases before : f.seq < l.receivedThrough + 1
        · rw [onSequenced_before (l := l.heard f.header.ack now) before]
          rfl
        · rw [onSequenced_ahead (l := l.heard f.header.ack now) next before,
            pulse_pushUnsequenced (silent_greeting _), noteGap, pulse_enter]
          rfl

end Link

open Link in
/-- Only what arrives changes the time noted. -/
theorem LinkEnd.peerTime_perform (e : LinkEnd) (now : SessionTime) (action : LinkAction) :
    (e.perform [] now action).link.peerTime = e.link.peerTime := by
  have pushed : ∀ m, (e.link.pushUnsequenced m now).peerTime = e.link.peerTime := by
    intro m
    unfold pushUnsequenced
    split
    · split <;> rfl
    · rfl
  cases action with
  | send m =>
    dsimp only [LinkEnd.perform]
    rcases e.link.send_cases m now with ⟨fault, sent⟩ | ⟨-, sent⟩ | ⟨-, -, f, -, sent⟩
    · rw [sent]
    · rw [sent]
      exact pushed m
    · rw [sent]
      rfl
  | tick =>
    rcases pulse_tick e.link now with same | none | ⟨-, -, one⟩
    · exact congrArg LinkPulse.peerTime same
    · exact congrArg LinkPulse.peerTime none
    · exact congrArg LinkPulse.peerTime one
  | connected =>
    rcases pulse_onConnected e.link now with same | none
    · exact congrArg LinkPulse.peerTime same
    · exact congrArg LinkPulse.peerTime none
  | disconnected =>
    rcases pulse_onDisconnected e.link now with same | none
    · exact congrArg LinkPulse.peerTime same
    · exact congrArg LinkPulse.peerTime none
  | requeue =>
    dsimp only [LinkEnd.perform]
    unfold requeue
    split
    · unfold resend
      split <;> rfl
    · rfl
  | close => exact congrArg LinkPulse.peerTime (pulse_close e.link now)
  | drainOutbound | drainInbound | deliver => rfl

end Tandem
