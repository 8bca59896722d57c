import Tandem.Proofs.Link.Delivery
/-!
# What is said over a link

A link neither makes up a message with a number nor changes one.  So whatever holds of every message that has been
given to it holds of every numbered frame that it keeps or queues, and whatever holds of the messages in the numbered
frames that it has been given holds of its inbox.  `Link.Bears` states this for two properties of messages, of those
`said` on this side and of those `heard` from the other one, and there is one lemma for each operation.

The numbers themselves do not matter here, and neither does whether a frame arrives.
-/

namespace Tandem

/-- The message of a numbered frame has a property.  Frames outside the sequence only concern the link. -/
def Frame.Tells (f : Frame) (property : SyncMessage → Prop) : Prop :=
  f.seq ≠ unsequenced → ∀ m, f.message = .ok m → property m

namespace Frame.Tells

variable {f : Frame} {property property' : SyncMessage → Prop}

theorem mono (h : f.Tells property) (more : ∀ m, property m → property' m) : f.Tells property' :=
  fun numbered m carried => more m (h numbered m carried)

/-- Sending a frame again, or stamping it with an acknowledgement, does not change its message. -/
theorem restamped (h : f.Tells property) (ack : UInt64) (flags : FrameFlags) :
    (f.restamped ack flags).Tells property := h

theorem of_outside {session : SessionId} {sender : ParticipantId} {m : SyncMessage}
    (written : Frame.ofMessage session sender unsequenced m = .ok f) : f.Tells property :=
  fun numbered => absurd (Frame.message_ofMessage written).2.1 numbered

theorem of_numbered {session : SessionId} {sender : ParticipantId} {seq : UInt64} {m : SyncMessage}
    (written : Frame.ofMessage session sender seq m = .ok f) (holds : property m.arrived) : f.Tells property := by
  intro _ m' carried
  have same := (Frame.message_ofMessage written).2.2.symm.trans carried
  cases same
  exact holds

end Frame.Tells

namespace Link

/-- Every message that a link keeps or queues with a number is one that has been `said`, and every message in its inbox
is one that may be `heard`. -/
structure Bears (l : Link) (said heard : SyncMessage → Prop) : Prop where
  retained : ∀ f ∈ l.stream.retained, f.Tells said
  outbox : ∀ f ∈ l.outbox.toList, f.Tells said
  inbox : ∀ m ∈ l.stream.inbox, heard m

namespace Bears

variable {l l' : Link} {said said' heard heard' : SyncMessage → Prop}

theorem new (config : LinkConfig) (session : SessionId) (localId : ParticipantId) :
    (Link.new config session localId).Bears said heard :=
  ⟨fun _ mem => absurd mem List.not_mem_nil, fun _ mem => absurd mem List.not_mem_nil,
    fun _ mem => absurd mem List.not_mem_nil⟩

theorem mono (h : l.Bears said heard) (more : ∀ m, said m → said' m) (more' : ∀ m, heard m → heard' m) :
    l.Bears said' heard' :=
  ⟨fun f mem => (h.retained f mem).mono more, fun f mem => (h.outbox f mem).mono more,
    fun m mem => more' m (h.inbox m mem)⟩

/-- The frames that a link queues by itself. -/
theorem tells_of_queueable (h : ∀ f ∈ l.stream.retained, f.Tells said) {f : Frame} (queueable : l.stream.Queueable f) :
    f.Tells said := by
  cases queueable with
  | greeting written => exact .of_outside written
  | heartbeat _ written => exact .of_outside written
  | again flags kept => exact (h _ kept).restamped 0 flags

/-- An operation that leaves the stream alone and queues nothing but frames of the link itself. -/
theorem quiet (h : l.Bears said heard) (stream : l'.stream = l.stream)
    (outbox : ∀ f ∈ l'.outbox.toList, f ∈ l.outbox.toList ∨ l.stream.Queueable f) : l'.Bears said heard where
  retained := by
    rw [stream]
    exact h.retained
  outbox f mem := (outbox f mem).elim (h.outbox f) (tells_of_queueable h.retained)
  inbox := by
    rw [stream]
    exact h.inbox

theorem tick (h : l.Bears said heard) (now : SessionTime) : (l.tick now).1.Bears said heard :=
  h.quiet (stream_tick l now) fun _ => mem_outbox_tick

theorem close (h : l.Bears said heard) (now : SessionTime) : (l.close now).Bears said heard :=
  h.quiet (stream_close l now) fun _ mem => absurd mem List.not_mem_nil

theorem requeue (h : l.Bears said heard) (now : SessionTime) : (l.requeue now).Bears said heard :=
  h.quiet (stream_requeue l now) fun _ => mem_outbox_requeue

theorem onConnected (h : l.Bears said heard) (now : SessionTime) : (l.onConnected now).Bears said heard :=
  h.quiet (stream_onConnected l now) fun _ => mem_outbox_onConnected

theorem onDisconnected (h : l.Bears said heard) (now : SessionTime) : (l.onDisconnected now).Bears said heard :=
  h.quiet (stream_onDisconnected l now) fun _ mem => Or.inl (mem_outbox_onDisconnected mem)

/-- What is sent is what the other side will read. -/
theorem send (h : l.Bears said heard) {m : SyncMessage} (holds : said m.arrived) (now : SessionTime) :
    (l.send m now).1.Bears said heard := by
  rcases l.send_cases m now with ⟨fault, sent⟩ | ⟨isLocal, sent⟩ | ⟨isLocal, -, f, written, sent⟩
  · rw [sent]
    exact h
  · rw [sent]
    refine ⟨?_, fun f mem => ?_, ?_⟩
    · rw [stream_pushUnsequenced]
      exact h.retained
    · exact (mem_outbox_pushUnsequenced mem).elim (h.outbox f) .of_outside
    · rw [stream_pushUnsequenced]
      exact h.inbox
  · rw [sent]
    have tells : f.Tells said := .of_numbered written holds
    refine ⟨fun g mem => ?_, fun g mem => ?_, ?_⟩
    · rw [stream_enqueue, List.mem_append, List.mem_singleton] at mem
      exact mem.elim (h.retained g) fun same => same ▸ tells
    · exact (mem_outbox_enqueue mem).elim (h.outbox g) fun same => same ▸ tells
    · rw [stream_enqueue]
      exact h.inbox

/-- The frames that are fetched to be sent tell what has been said. -/
theorem drainOutbound (h : l.Bears said heard) :
    (∀ f ∈ l.drainOutbound.1, f.Tells said) ∧ l.drainOutbound.2.Bears said heard := by
  constructor
  · intro f mem
    obtain ⟨g, queued, rfl⟩ := List.mem_map.mp mem
    exact (h.outbox g queued).restamped _ _
  · exact h.quiet (stream_drainOutbound l) fun _ mem => absurd mem List.not_mem_nil

/-- So do the messages that are fetched from the inbox. -/
theorem drainInbound (h : l.Bears said heard) :
    (∀ m ∈ l.drainInbound.1, heard m) ∧ l.drainInbound.2.Bears said heard := by
  refine ⟨h.inbox, ?_, h.outbox, ?_⟩
  · rw [stream_drainInbound]
    exact h.retained
  · rw [stream_drainInbound]
    exact fun m mem => absurd mem List.not_mem_nil

/-- A frame that tells what may be heard is taken. -/
theorem onFrame (h : l.Bears said heard) {f : Frame} (tells : f.Tells heard) (now : SessionTime) :
    (l.onFrame f now).1.Bears said heard := by
  have takes := l.takes_onFrame f now
  obtain ⟨gone, split, -⟩ : l.stream.Drops (l.onFrame f now).1.stream 0xFFFFFFFFFFFFFFFF := by
    have all : ∀ n : UInt64, n ≤ 0xFFFFFFFFFFFFFFFF := fun n =>
      UInt64.le_iff_toNat_le.mpr (Nat.le_of_lt_succ n.toNat_lt)
    exact takes.drops (all _) fun _ _ _ => all _
  have retained : ∀ g ∈ (l.onFrame f now).1.stream.retained, g.Tells said := fun g mem =>
    h.retained g (split ▸ List.mem_append_right gone mem)
  refine ⟨retained, fun g mem => ?_, fun m mem => ?_⟩
  · exact (mem_outbox_onFrame mem).elim (h.outbox g) (tells_of_queueable retained)
  · rcases takes.received with ⟨-, inbox⟩ | ⟨m', numbered, carried, -, -, inbox⟩
    · rw [inbox] at mem
      exact h.inbox m mem
    · rw [inbox, List.mem_append, List.mem_singleton] at mem
      exact mem.elim (h.inbox m) fun same => same ▸ tells numbered m' carried

end Bears

end Link

end Tandem
