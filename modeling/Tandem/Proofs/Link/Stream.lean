import Tandem.Link.Basic
import Tandem.Proofs.Wire.RoundTrip
/-!
# The numbered stream of a link

Most of what a link does concerns the connection: its state, its timers, its hellos and heartbeats.  The
*stream* is the rest: the number of the next message, the frames kept for sending again, what has been
received and up to which number.  This module says once and for all which operations touch the stream, and
where the frames come from that an operation queues.

* `Link.stream` is the view; the lemmas `stream_*` give it after every operation.
* `Link.Queueable` lists the frames that a link may queue by itself: a greeting, a heartbeat, a retained frame
  sent again.  The lemmas `mem_outbox_*` say that an operation queues nothing else.

Later arguments about two links never look into an operation again.
-/

namespace Tandem

/-- What a link holds of the numbered messages. -/
structure LinkStream where
  session : SessionId
  localId : ParticipantId
  capacity : Nat
  nextSeq : UInt64
  retained : List Frame
  inbox : List SyncMessage
  /-- The highest number received without a gap. -/
  through : UInt64

/-- The stream without the retained frames up to a number. -/
def LinkStream.release (s : LinkStream) (n : UInt64) : LinkStream :=
  { s with retained := s.retained.dropWhile (fun f => f.seq ≤ n) }

namespace Link

/-- The stream of a link. -/
def stream (l : Link) : LinkStream :=
  ⟨l.session, l.localId, l.config.outboundCapacity, l.nextSeq, l.retained.toList, l.inbox.toList,
    l.receivedThrough⟩

/-! ## Operations that leave the stream alone -/

@[simp] theorem stream_count (l : Link) (f : LinkStats → LinkStats) : (l.count f).stream = l.stream := rfl

@[simp] theorem stream_enter (l : Link) (state : LinkState) (now : SessionTime) :
    (l.enter state now).stream = l.stream := by
  unfold enter
  split <;> rfl

@[simp] theorem stream_revive (l : Link) (now : SessionTime) : (l.revive now).stream = l.stream := by
  unfold revive
  split
  · exact stream_enter l _ now
  · rfl

@[simp] theorem stream_pushUnsequenced (l : Link) (m : SyncMessage) (now : SessionTime) :
    (l.pushUnsequenced m now).stream = l.stream := by
  unfold pushUnsequenced
  split
  · split <;> rfl
  · rfl

@[simp] theorem stream_beat (l : Link) (now : SessionTime) : (l.beat now).stream = l.stream := by
  unfold beat
  split
  · exact stream_pushUnsequenced _ _ now
  · rfl

@[simp] theorem stream_close (l : Link) (now : SessionTime) : (l.close now).stream = l.stream :=
  stream_enter l .closed now

@[simp] theorem stream_resend (l : Link) (now : SessionTime) : (l.resend now).stream = l.stream := by
  unfold resend
  split <;> rfl

@[simp] theorem stream_requeue (l : Link) (now : SessionTime) : (l.requeue now).stream = l.stream := by
  unfold requeue
  split
  · exact stream_resend l now
  · rfl

@[simp] theorem stream_onConnected (l : Link) (now : SessionTime) :
    (l.onConnected now).stream = l.stream := by
  unfold onConnected
  by_cases closed : l.state = .closed
  · rw [if_pos closed]
  · rw [if_neg closed]
    by_cases known : l.remote.isSome = true
    · simp only [known, if_true, stream_pushUnsequenced]
      rfl
    · simp only [known, stream_pushUnsequenced]
      rfl

@[simp] theorem stream_onDisconnected (l : Link) (now : SessionTime) :
    (l.onDisconnected now).stream = l.stream := by
  unfold onDisconnected
  split
  · rfl
  · dsimp only
    split
    · exact stream_enter { l with connected := false, outbox := .empty } _ now
    · rfl

@[simp] theorem stream_tick (l : Link) (now : SessionTime) : (l.tick now).1.stream = l.stream := by
  unfold tick
  cases l.state with
  | closed => rfl
  | connecting => rfl
  | established =>
    dsimp only
    rw [stream_beat]
    split
    · exact stream_enter l _ now
    · rfl
  | degraded =>
    dsimp only
    split
    · exact stream_enter l .closed now
    · exact stream_beat l now

@[simp] theorem stream_drainOutbound (l : Link) : l.drainOutbound.2.stream = l.stream := rfl

/-! ## Operations on the stream -/

@[simp] theorem stream_releaseAcked (l : Link) (ack : UInt64) :
    (l.releaseAcked ack).stream = l.stream.release ack := by
  simp [stream, releaseAcked, receivedThrough, LinkStream.release]

@[simp] theorem stream_enqueue (l : Link) (f : Frame) (now : SessionTime) : (l.enqueue f now).stream =
    { l.stream with nextSeq := l.stream.nextSeq + 1, retained := l.stream.retained ++ [f] } := by
  simp [stream, enqueue, count, receivedThrough]

@[simp] theorem stream_drainInbound (l : Link) :
    l.drainInbound.2.stream = { l.stream with inbox := [] } := by
  simp [stream, drainInbound, receivedThrough]

end Link

/-! ## The three places of a number

A numbered frame is the next one, one that has been received before, or one ahead of a gap. -/

/-- A number that is not the last one is below the next. -/
theorem lt_add_one {n : UInt64} (h : n + 1 ≠ 0) : n < n + 1 := by
  have := n.toNat_lt
  rw [UInt64.lt_iff_toNat_lt, UInt64.toNat_add]
  rw [Ne, ← UInt64.toNat_inj, UInt64.toNat_add] at h
  change ¬ (n.toNat + 1) % 2 ^ 64 = 0 at h
  change n.toNat < (n.toNat + 1) % 2 ^ 64
  omega

namespace SequenceTracker

theorem accept_next {t : SequenceTracker} {seq : UInt64} (next : seq = t.highest + 1) :
    t.accept seq = ({ t with highest := seq }, .ok .fresh) := by
  subst next
  simp [accept, check, UInt64.lt_irrefl]

theorem accept_before {t : SequenceTracker} {seq : UInt64} (before : seq < t.highest + 1) :
    t.accept seq = ({ t with duplicates := t.duplicates + 1 }, .ok .duplicate) := by
  simp only [accept, check, before, if_true]

theorem accept_ahead {t : SequenceTracker} {seq : UInt64} (notNext : seq ≠ t.highest + 1)
    (notBefore : ¬ seq < t.highest + 1) :
    t.accept seq = ({ t with gaps := t.gaps + 1 }, .error (.outOfSequence (t.highest + 1) seq)) := by
  simp only [accept, check, notBefore, notNext, if_false]

end SequenceTracker

namespace Link

/-- The link with the number of the next frame noted, as it stands when the message is queued. -/
def noteNext (l : Link) (seq : UInt64) (now : SessionTime) : Link :=
  { l with received := { l.received with highest := seq } }.revive now

/-- The link with a gap noted, as it stands when it asks for what it lacks. -/
def noteGap (l : Link) (now : SessionTime) : Link :=
  ({ l with received := { l.received with gaps := l.received.gaps + 1 } }.count
    (fun s => { s with gaps := s.gaps + 1 })).enter .degraded now

theorem onSequenced_next {l : Link} {seq : UInt64} (next : seq = l.receivedThrough + 1) (m : SyncMessage)
    (now : SessionTime) : l.onSequenced seq m now =
      ({ l.noteNext seq now with inbox := l.inbox.push m }.count
        (fun s => { s with messagesReceived := s.messagesReceived + 1 }), .ok ()) := by
  unfold onSequenced
  rw [SequenceTracker.accept_next next]
  rfl

theorem onSequenced_before {l : Link} {seq : UInt64} (before : seq < l.receivedThrough + 1) (m : SyncMessage)
    (now : SessionTime) : l.onSequenced seq m now =
      ({ l with received := { l.received with duplicates := l.received.duplicates + 1 } }.count
        (fun s => { s with duplicates := s.duplicates + 1 }), .ok ()) := by
  unfold onSequenced
  rw [SequenceTracker.accept_before before]

theorem onSequenced_ahead {l : Link} {seq : UInt64} (notNext : seq ≠ l.receivedThrough + 1)
    (notBefore : ¬ seq < l.receivedThrough + 1) (m : SyncMessage) (now : SessionTime) :
    l.onSequenced seq m now =
      ((l.noteGap now).pushUnsequenced (l.noteGap now).greeting now,
        .error (.outOfSequence (l.receivedThrough + 1) seq)) := by
  unfold onSequenced
  rw [SequenceTracker.accept_ahead notNext notBefore]
  rfl

@[simp] theorem stream_noteNext (l : Link) (seq : UInt64) (now : SessionTime) :
    (l.noteNext seq now).stream = { l.stream with through := seq } := stream_revive _ now

@[simp] theorem stream_noteGap (l : Link) (now : SessionTime) : (l.noteGap now).stream = l.stream :=
  stream_enter _ .degraded now

/-- A frame in its place moves the stream on, and no other numbered frame touches it. -/
theorem stream_onSequenced (l : Link) (seq : UInt64) (m : SyncMessage) (now : SessionTime) :
    (l.onSequenced seq m now).1.stream =
      if seq = l.receivedThrough + 1 then { l.stream with inbox := l.inbox.toList ++ [m], through := seq }
      else l.stream := by
  by_cases next : seq = l.receivedThrough + 1
  · have noted := stream_noteNext l seq now
    simp only [stream, LinkStream.mk.injEq] at noted
    obtain ⟨session, localId, capacity, nextSeq, retained, -, through⟩ := noted
    rw [onSequenced_next next, if_pos next, stream_count]
    simp only [stream, LinkStream.mk.injEq]
    exact ⟨session, localId, capacity, nextSeq, retained, Fifo.toList_push l.inbox m, through⟩
  · rw [if_neg next]
    by_cases before : seq < l.receivedThrough + 1
    · rw [onSequenced_before before]
      rfl
    · rw [onSequenced_ahead next before, stream_pushUnsequenced, stream_noteGap]

end Link

/-! ## Where queued frames come from -/

/-- The frames that a link queues by itself, given its stream. -/
inductive LinkStream.Queueable (s : LinkStream) : Frame → Prop where
  /-- The hello that tells the peer where to resume. -/
  | greeting {f : Frame}
      (written : Frame.ofMessage s.session s.localId unsequenced (.hello s.localId s.through) = .ok f) :
      Queueable s f
  | heartbeat {f : Frame} (time : SessionTime)
      (written : Frame.ofMessage s.session s.localId unsequenced (.heartbeat time) = .ok f) : Queueable s f
  /-- A retained frame, sent again. -/
  | again {f : Frame} (flags : FrameFlags) (kept : f ∈ s.retained) : Queueable s (f.restamped 0 flags)

namespace Link

@[simp] theorem outbox_count (l : Link) (f : LinkStats → LinkStats) : (l.count f).outbox = l.outbox := rfl

@[simp] theorem outbox_enter (l : Link) (state : LinkState) (now : SessionTime) :
    (l.enter state now).outbox = l.outbox := by
  unfold enter
  split <;> rfl

@[simp] theorem outbox_revive (l : Link) (now : SessionTime) : (l.revive now).outbox = l.outbox := by
  unfold revive
  split
  · exact outbox_enter l _ now
  · rfl

@[simp] theorem outbox_releaseAcked (l : Link) (ack : UInt64) : (l.releaseAcked ack).outbox = l.outbox := rfl

@[simp] theorem outbox_close (l : Link) (now : SessionTime) : (l.close now).outbox = .empty := rfl

theorem mem_outbox_pushUnsequenced {l : Link} {m : SyncMessage} {now : SessionTime} {f : Frame}
    (h : f ∈ (l.pushUnsequenced m now).outbox.toList) :
    f ∈ l.outbox.toList ∨ Frame.ofMessage l.session l.localId unsequenced m = .ok f := by
  unfold pushUnsequenced at h
  cases written : Frame.ofMessage l.session l.localId unsequenced m with
  | error fault =>
    rw [written] at h
    exact Or.inl h
  | ok g =>
    rw [written] at h
    dsimp only at h
    split at h
    · rw [Fifo.toList_push, List.mem_append, List.mem_singleton] at h
      exact h.imp_right (fun same => congrArg Except.ok same.symm)
    · exact Or.inl h

theorem mem_outbox_beat {l : Link} {now : SessionTime} {f : Frame} (h : f ∈ (l.beat now).outbox.toList) :
    f ∈ l.outbox.toList ∨ l.stream.Queueable f := by
  unfold beat at h
  split at h
  · exact (mem_outbox_pushUnsequenced h).imp_right (.heartbeat now)
  · exact Or.inl h

theorem mem_outbox_resend {l : Link} {now : SessionTime} {f : Frame} (h : f ∈ (l.resend now).outbox.toList) :
    f ∈ l.outbox.toList ∨ l.stream.Queueable f := by
  unfold resend at h
  split at h
  · exact Or.inl h
  · rw [outbox_count, Fifo.toList_ofList, List.mem_append] at h
    rcases h with kept | again
    · exact Or.inl ((List.mem_filter.mp kept).1)
    · obtain ⟨g, retained, rfl⟩ := List.mem_map.mp again
      exact Or.inr (.again _ retained)

theorem mem_outbox_requeue {l : Link} {now : SessionTime} {f : Frame} (h : f ∈ (l.requeue now).outbox.toList) :
    f ∈ l.outbox.toList ∨ l.stream.Queueable f := by
  unfold requeue at h
  split at h
  · exact mem_outbox_resend h
  · exact Or.inl h

theorem mem_outbox_onConnected {l : Link} {now : SessionTime} {f : Frame}
    (h : f ∈ (l.onConnected now).outbox.toList) : f ∈ l.outbox.toList ∨ l.stream.Queueable f := by
  unfold onConnected at h
  split at h
  · exact Or.inl h
  · dsimp only at h
    rcases mem_outbox_pushUnsequenced h with queued | greeting
    · exact absurd queued List.not_mem_nil
    · split at greeting <;> exact Or.inr (.greeting greeting)

theorem mem_outbox_onDisconnected {l : Link} {now : SessionTime} {f : Frame}
    (h : f ∈ (l.onDisconnected now).outbox.toList) : f ∈ l.outbox.toList := by
  unfold onDisconnected at h
  split at h
  · exact h
  · dsimp only at h
    split at h
    · rw [outbox_enter] at h
      exact absurd h List.not_mem_nil
    · exact absurd h List.not_mem_nil

theorem mem_outbox_tick {l : Link} {now : SessionTime} {f : Frame} (h : f ∈ (l.tick now).1.outbox.toList) :
    f ∈ l.outbox.toList ∨ l.stream.Queueable f := by
  unfold tick at h
  cases state : l.state with
  | closed => simp only [state] at h; exact Or.inl h
  | connecting => simp only [state] at h; exact Or.inl h
  | established =>
    simp only [state] at h
    split at h
    · simpa using mem_outbox_beat h
    · exact mem_outbox_beat h
  | degraded =>
    simp only [state] at h
    split at h
    · exact absurd h List.not_mem_nil
    · exact mem_outbox_beat h

/-- A numbered frame makes the link queue at most a greeting. -/
theorem mem_outbox_onSequenced {l : Link} {seq : UInt64} {m : SyncMessage} {now : SessionTime} {f : Frame}
    (h : f ∈ (l.onSequenced seq m now).1.outbox.toList) :
    f ∈ l.outbox.toList ∨ (l.onSequenced seq m now).1.stream.Queueable f := by
  by_cases next : seq = l.receivedThrough + 1
  · rw [onSequenced_next next] at h
    have queued : f ∈ (l.noteNext seq now).outbox.toList := h
    rw [noteNext, outbox_revive] at queued
    exact Or.inl queued
  · by_cases before : seq < l.receivedThrough + 1
    · rw [onSequenced_before before] at h
      exact Or.inl h
    · rw [onSequenced_ahead next before] at h ⊢
      rw [stream_pushUnsequenced]
      rcases mem_outbox_pushUnsequenced h with queued | greeting
      · rw [noteGap, outbox_enter] at queued
        exact Or.inl queued
      · exact Or.inr (.greeting greeting)

/-! ## Sending a message -/

/-- A message is refused, queued outside the sequence or queued with the next number. -/
theorem send_cases (l : Link) (m : SyncMessage) (now : SessionTime) :
    (∃ fault, l.send m now = (l, .error fault)) ∨
    (m.isLinkLocal = true ∧ l.send m now = (l.pushUnsequenced m now, .ok unsequenced)) ∨
    (m.isLinkLocal = false ∧ l.retained.toList.length < l.config.outboundCapacity ∧
      ∃ f, Frame.ofMessage l.session l.localId l.nextSeq m = .ok f ∧
        l.send m now = (l.enqueue f now, .ok l.nextSeq)) := by
  unfold send
  by_cases closed : l.state = .closed
  · exact Or.inl ⟨_, if_pos closed⟩
  · rw [if_neg closed]
    cases isLocal : m.isLinkLocal with
    | true => exact Or.inr (Or.inl ⟨rfl, rfl⟩)
    | false =>
      by_cases full : l.config.outboundCapacity ≤ l.retained.size
      · exact Or.inl ⟨_, by rw [if_neg Bool.false_ne_true, if_pos full]⟩
      · rw [if_neg Bool.false_ne_true, if_neg full]
        cases written : Frame.ofMessage l.session l.localId l.nextSeq m with
        | error fault => exact Or.inl ⟨fault, rfl⟩
        | ok f =>
          rw [Fifo.size_eq_length] at full
          exact Or.inr (Or.inr ⟨rfl, Nat.lt_of_not_le full, f, rfl, rfl⟩)

/-- A refused message leaves the link as it was. -/
theorem send_refused {l : Link} {m : SyncMessage} {now : SessionTime} {fault : Fault}
    (refused : (l.send m now).2 = .error fault) : (l.send m now).1 = l := by
  rcases send_cases l m now with ⟨_, sent⟩ | ⟨_, sent⟩ | ⟨_, _, _, _, sent⟩
  · rw [sent]
  · rw [sent] at refused
    exact absurd refused (by simp)
  · rw [sent] at refused
    exact absurd refused (by simp)

theorem mem_outbox_enqueue {l : Link} {f g : Frame} {now : SessionTime}
    (h : g ∈ (l.enqueue f now).outbox.toList) : g ∈ l.outbox.toList ∨ g = f := by
  unfold enqueue at h
  dsimp only at h
  rw [outbox_count] at h
  dsimp only at h
  split at h
  · rwa [Fifo.toList_push, List.mem_append, List.mem_singleton] at h
  · exact Or.inl h

end Link

/-! ## Taking a frame -/

/-- What taking a frame can do to a stream. -/
inductive LinkStream.Takes (s : LinkStream) (f : Frame) : LinkStream → Prop where
  /-- The frame is of another session, or the link is closed. -/
  | ignored : Takes s f s
  /-- Only the acknowledgement counts. -/
  | acknowledged (session : f.header.session = s.session) : Takes s f (s.release f.header.ack)
  /-- A hello releases what it has been told of. -/
  | resumed {participant : ParticipantId} {resumeFrom : UInt64} (session : f.header.session = s.session)
      (outside : f.seq = unsequenced) (carried : f.message = .ok (.hello participant resumeFrom)) :
      Takes s f ((s.release f.header.ack).release resumeFrom)
  /-- The next message. -/
  | next {m : SyncMessage} (session : f.header.session = s.session) (numbered : f.seq ≠ unsequenced)
      (carried : f.message = .ok m) (inPlace : f.seq = s.through + 1) :
      Takes s f { s.release f.header.ack with inbox := s.inbox ++ [m], through := f.seq }

namespace LinkStream

variable {s s' : LinkStream} {f : Frame}

theorem Takes.nextSeq (h : s.Takes f s') : s'.nextSeq = s.nextSeq := by
  cases h <;> rfl

theorem Takes.through (h : s.Takes f s') : s.through ≤ s'.through := by
  cases h with
  | next _ numbered _ inPlace =>
    rw [inPlace] at numbered
    rw [UInt64.le_iff_toNat_le, inPlace]
    exact Nat.le_of_lt (UInt64.lt_iff_toNat_lt.mp (lt_add_one numbered))
  | _ => exact UInt64.le_refl _

theorem Takes.capacity (h : s.Takes f s') : s'.capacity = s.capacity := by
  cases h <;> rfl

/-- Either nothing is received or the next message is. -/
theorem Takes.received (h : s.Takes f s') :
    (s'.through = s.through ∧ s'.inbox = s.inbox) ∨
    (∃ m, f.seq ≠ unsequenced ∧ f.message = .ok m ∧ f.seq = s.through + 1 ∧ s'.through = f.seq ∧
      s'.inbox = s.inbox ++ [m]) := by
  cases h with
  | next _ numbered carried inPlace => exact Or.inr ⟨_, numbered, carried, inPlace, rfl, rfl⟩
  | _ => exact Or.inl ⟨rfl, rfl⟩

end LinkStream

namespace Link

theorem takes_onLinkMessage {l : Link} {s : LinkStream} {f : Frame} {m : SyncMessage} {now : SessionTime}
    (session : f.header.session = s.session) (before : l.stream = s.release f.header.ack)
    (outside : f.seq = unsequenced) (carried : f.message = .ok m) :
    s.Takes f (l.onLinkMessage m now).1.stream := by
  cases m with
  | hello participant resumeFrom =>
    unfold onLinkMessage
    dsimp only
    split
    · rw [before]
      exact .acknowledged session
    · rw [stream_resend, stream_enter, stream_releaseAcked]
      have known : ({ l with remote := some participant } : Link).stream = l.stream := rfl
      rw [known, before]
      exact .resumed session outside carried
  | heartbeat time =>
    unfold onLinkMessage
    dsimp only
    rw [stream_revive]
    have heard : ({ l with peerTime := l.peerTime.latest time } : Link).stream = l.stream := rfl
    rw [heard, before]
    exact .acknowledged session
  | delta | forward | start | pause | resume | finish =>
    unfold onLinkMessage
    dsimp only
    rw [before]
    exact .acknowledged session

/-- **What taking a frame does.** -/
theorem takes_onFrame (l : Link) (f : Frame) (now : SessionTime) :
    l.stream.Takes f (l.onFrame f now).1.stream := by
  unfold onFrame
  by_cases foreign : f.header.session ≠ l.session
  · rw [if_pos foreign]
    exact .ignored
  · have session : f.header.session = l.stream.session := Decidable.of_not_not foreign
    rw [if_neg foreign]
    by_cases closed : l.state = .closed
    · rw [if_pos closed]
      exact .ignored
    · rw [if_neg closed]
      dsimp only
      have before : (({ l with lastHeard := now } : Link).releaseAcked f.header.ack).stream =
          l.stream.release f.header.ack := stream_releaseAcked _ _
      cases carried : f.message with
      | error fault =>
        dsimp only
        rw [before]
        exact .acknowledged session
      | ok m =>
        dsimp only
        by_cases outside : f.seq = unsequenced
        · rw [if_pos outside]
          exact takes_onLinkMessage session before outside carried
        · rw [if_neg outside, stream_onSequenced, before]
          split
          · exact .next session outside carried ‹_›
          · exact .acknowledged session

theorem mem_outbox_onLinkMessage {l : Link} {m : SyncMessage} {now : SessionTime} {f : Frame}
    (h : f ∈ (l.onLinkMessage m now).1.outbox.toList) :
    f ∈ l.outbox.toList ∨ (l.onLinkMessage m now).1.stream.Queueable f := by
  cases m with
  | hello participant resumeFrom =>
    unfold onLinkMessage at h ⊢
    dsimp only at h ⊢
    split at h
    · exact Or.inl h
    · rw [stream_resend]
      exact (mem_outbox_resend h).imp_left (fun queued => by rwa [outbox_enter] at queued)
  | heartbeat time =>
    unfold onLinkMessage at h
    dsimp only at h
    rw [outbox_revive] at h
    exact Or.inl h
  | delta | forward | start | pause | resume | finish => exact Or.inl h

theorem mem_outbox_onFrame {l : Link} {f g : Frame} {now : SessionTime}
    (h : g ∈ (l.onFrame f now).1.outbox.toList) :
    g ∈ l.outbox.toList ∨ (l.onFrame f now).1.stream.Queueable g := by
  unfold onFrame at h ⊢
  by_cases foreign : f.header.session ≠ l.session
  · rw [if_pos foreign] at h
    exact Or.inl h
  · rw [if_neg foreign] at h ⊢
    by_cases closed : l.state = .closed
    · rw [if_pos closed] at h
      exact Or.inl h
    · rw [if_neg closed] at h ⊢
      cases carried : f.message with
      | error fault =>
        simp only [carried] at h
        exact Or.inl h
      | ok m =>
        simp only [carried] at h ⊢
        by_cases outside : f.seq = unsequenced
        · rw [if_pos outside] at h ⊢
          exact mem_outbox_onLinkMessage h
        · rw [if_neg outside] at h ⊢
          exact mem_outbox_onSequenced h

end Link

end Tandem
