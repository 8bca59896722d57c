import Mathlib.Data.List.Infix
import Tandem.Proofs.Link.Continuity
import Tandem.Proofs.Link.Lifecycle
/-!
# The window of a link

The messages that a link has numbered are at three places: the other end has them for good, they are retained, or they
are retained and queued.  The retained ones are a *window* onto the numbers: it slides on as the other end acknowledges,
grows by the message that is sent next, and nothing is ever put into it or taken out of it anywhere else.  The queue is
another such window, emptied whenever frames are fetched or the connection drops, and filled with everything that is
retained when the other end says hello.

A window is the end of the list of all numbers given so far (`List.IsSuffix`), which says at once that its numbers are
consecutive and that the last one of them is the last number given.  `Link.Slides` says what a call does that gives no
number, and `Link.keepsWindow_callAll` is the result for whole lives, whatever arrives and at whatever times.
-/

namespace Tandem

theorem toNat_add_one {n : UInt64} (h : n + 1 ≠ 0) : (n + 1).toNat = n.toNat + 1 := by
  have further := UInt64.lt_iff_toNat_lt.mp (lt_add_one h)
  rw [UInt64.toNat_add, UInt64.toNat_one] at further ⊢
  omega

/-- One more number at the end of a window. -/
theorem suffix_next {l : List Nat} {n : Nat} (h : l <:+ List.range' 1 n) : l ++ [n + 1] <:+ List.range' 1 (n + 1) := by
  obtain ⟨before, whole⟩ := h
  refine ⟨before, ?_⟩
  rw [← List.append_assoc, whole, List.range'_1_concat, Nat.add_comm]

/-- Every frame in a window is numbered. -/
theorem Frame.numbers_of_window {frames : List Frame} {n : Nat}
    (h : frames.map (fun f => f.seq.toNat) <:+ List.range' 1 n) :
    Frame.numbers frames = frames.map (fun f => f.seq.toNat) := by
  rw [Frame.numbers, List.filter_eq_self.mpr]
  intro f mem
  have given := h.subset (List.mem_map_of_mem mem)
  have positive : 1 ≤ f.seq.toNat := (List.mem_range'_1.mp given).1
  have numbered : f.seq ≠ unsequenced := by
    intro outside
    rw [outside] at positive
    exact absurd positive (by decide)
  exact decide_eq_true numbered

/-! ## What the other end claims -/

/-- How far a frame says that the other end has received: by its acknowledgement, and by the number that a hello names.
Nobody listens to the frames of another session. -/
def Frame.claims (session : SessionId) (f : Frame) : Nat :=
  if f.header.session = session then
    match f.message with
    | .ok (.hello _ resumeFrom) => max f.header.ack.toNat resumeFrom.toNat
    | _ => f.header.ack.toNat
  else 0

namespace LinkCall

/-- How far the other end has received according to a call. -/
def claims (session : SessionId) : LinkCall → Nat
  | .frame f => f.claims session
  | _ => 0

/-- The highest number that the other end has acknowledged or named in a hello. -/
def highestClaim (session : SessionId) (calls : List (SessionTime × LinkCall)) : Nat :=
  calls.foldl (fun n c => max n (c.2.claims session)) 0

end LinkCall

namespace Frame

variable {session : SessionId} {f : Frame}

theorem ack_le_claims (here : f.header.session = session) : f.header.ack.toNat ≤ f.claims session := by
  unfold claims
  rw [if_pos here]
  split
  · exact Nat.le_max_left _ _
  · exact Nat.le_refl _

theorem resumeFrom_le_claims (here : f.header.session = session) {participant : ParticipantId} {resumeFrom : UInt64}
    (carried : f.message = .ok (.hello participant resumeFrom)) : resumeFrom.toNat ≤ f.claims session := by
  unfold claims
  rw [if_pos here, carried]
  exact Nat.le_max_right _ _

end Frame

/-- A frame makes a link let go of no more than it claims. -/
theorem LinkStream.Takes.drops_claims {s s' : LinkStream} {f : Frame} (h : s.Takes f s') :
    ∃ bound, s.Drops s' bound ∧ bound.toNat ≤ f.claims s.session := by
  cases h with
  | ignored => exact ⟨0, .refl s 0, Nat.zero_le _⟩
  | acknowledged here => exact ⟨_, drops_release (UInt64.le_refl _), Frame.ack_le_claims here⟩
  | next here => exact ⟨_, drops_release (UInt64.le_refl _), Frame.ack_le_claims here⟩
  | @resumed participant resumeFrom here _ carried =>
    -- The higher one of the two numbers is the bound.
    rcases UInt64.le_total f.header.ack resumeFrom with le | le
    · exact ⟨resumeFrom, (drops_release le).trans (drops_release (UInt64.le_refl _)),
        Frame.resumeFrom_le_claims here carried⟩
    · exact ⟨f.header.ack, (drops_release (UInt64.le_refl _)).trans (drops_release le), Frame.ack_le_claims here⟩

/-- What a link queues by itself with a number is a retained frame. -/
theorem LinkStream.Queueable.kept {s : LinkStream} {g : Frame} (h : s.Queueable g) (numbered : g.seq ≠ unsequenced) :
    ∃ f ∈ s.retained, g = f.restamped g.header.ack g.header.flags := by
  cases h with
  | greeting written | heartbeat _ written => exact absurd (Frame.message_ofMessage written).2.1 numbered
  | again flags kept => exact ⟨_, kept, rfl⟩

/-! ## What becomes of the queue -/

namespace Link

variable {l l' : Link} {now : SessionTime}

theorem canTransmit_iff : l.canTransmit = true ↔
    l.bond.connected = true ∧ l.bond.remote.isSome = true ∧ l.standing.state.stage = 1 := by
  have connected : l.bond.connected = l.connected := rfl
  have remote : l.bond.remote = l.remote := rfl
  have state : l.standing.state = l.state := rfl
  rw [connected, remote, state]
  unfold canTransmit
  cases l.state <;> simp [LinkState.stage]

end Link

theorem LinkStanding.Goes.stage {s s' : LinkStanding} {now : SessionTime} (h : s.Goes now s')
    (talking : s.state.stage = 1) : s'.state.stage = 1 := by
  cases h with
  | stays => exact talking
  | establishes | degrades => rw [state_enter]; rfl

namespace Link

variable {l l' : Link} {now : SessionTime}

/-- A link that may send numbered frames still may, unless it is closed and its queue is dropped. -/
theorem Turns.canTransmit (h : l.Turns now l') (connected : l'.bond.connected = l.bond.connected)
    (may : l.canTransmit = true) : l'.canTransmit = true ∨ l'.outbox.toList = [] := by
  obtain ⟨there, known, talking⟩ := canTransmit_iff.mp may
  cases h with
  | closes _ outbox => exact Or.inr outbox
  | goes goes =>
    obtain ⟨participant, remote⟩ := Option.isSome_iff_exists.mp known
    have same : l'.remote = some participant := goes.keeps.2 participant remote
    refine Or.inl (canTransmit_iff.mpr ⟨connected.trans there, ?_, goes.stage talking⟩)
    rw [bond, same]
    rfl

/-- A message that is sent while no numbered frame may go out is not queued. -/
theorem queued_enqueue_of_held (held : l.canTransmit = false) (f : Frame) (now : SessionTime) :
    (l.enqueue f now).queued = l.queued := by
  have outbox : (l.enqueue f now).outbox = l.outbox := if_neg (by rw [held]; exact Bool.false_ne_true)
  rw [queued, queued, outbox]

/-- How the queue of a link may change in a call that gives no number. -/
inductive Refills (l l' : Link) : Prop where
  | keeps (queued : l'.queued = l.queued) (may : l.canTransmit = true → l'.canTransmit = true)
  | empties (queued : l'.queued = [])
  /-- Everything that is retained is queued again. -/
  | again (queued : l'.queued = Frame.numbers l'.stream.retained) (may : l'.canTransmit = true)

theorem refills_of_empty (empty : l'.outbox.toList = []) : l.Refills l' :=
  .empties (congrArg Frame.numbers empty)

/-- A call that leaves the queue alone, and whether there is a connection. -/
theorem Turns.refills (h : l.Turns now l') (queued : l'.queued = l.queued)
    (connected : l'.bond.connected = l.bond.connected) : l.Refills l' := by
  by_cases empty : l'.outbox.toList = []
  · exact refills_of_empty empty
  · exact .keeps queued fun may => (h.canTransmit connected may).resolve_right empty

theorem refills_tick (l : Link) (now : SessionTime) : l.Refills (l.tick now).1 := by
  rcases l.queued_tick now with same | ⟨-, empty⟩
  · exact (l.turns_tick now).refills same (congrArg LinkBond.connected (l.bond_tick now))
  · exact .empties empty

theorem refills_onConnected (l : Link) (now : SessionTime) : l.Refills (l.onConnected now) := by
  unfold onConnected
  split
  · exact .keeps rfl id
  · refine .empties ?_
    dsimp only
    rw [queued_pushUnsequenced]
    rfl

theorem refills_onDisconnected (l : Link) (now : SessionTime) : l.Refills (l.onDisconnected now) := by
  unfold onDisconnected
  split
  · exact .keeps rfl id
  · refine .empties ?_
    dsimp only
    split
    · rw [queued_enter]
      rfl
    · rfl

theorem refills_requeue (l : Link) (now : SessionTime) : l.Refills (l.requeue now) := by
  unfold requeue
  split
  · rename_i may
    have connected : l.connected = true := (canTransmit_iff.mp may).1
    refine .again ?_ ?_
    · rw [stream_resend]
      exact queued_resend connected now
    · rw [canTransmit_iff, bond_resend, standing_resend]
      exact canTransmit_iff.mp may
  · exact .keeps rfl id

theorem resend_of_unconnected (alone : l.bond.connected = false) (now : SessionTime) : l.resend now = l := by
  have alone : l.connected = false := alone
  unfold resend
  rw [alone]
  rfl

/-- Without a connection a frame leaves the queue alone, even a hello. -/
theorem queued_onFrame_of_unconnected (alone : l.connected = false) (f : Frame) (now : SessionTime) :
    (l.onFrame f now).1.queued = l.queued := by
  cases l.handles_onFrame f now with
  | aside _ queued | unreadable _ queued => exact queued
  | gap _ _ _ _ queued => exact queued
  | greeted isOpen outside carried =>
    by_cases foreign : f.header.session ≠ l.session
    · unfold onFrame
      rw [if_pos foreign]
    · rw [onFrame_eq (Decidable.of_not_not foreign) isOpen carried, if_pos outside]
      unfold onLinkMessage
      dsimp only
      split
      · rfl
      · rw [resend_of_unconnected, queued_enter]
        · rfl
        · rw [bond_enter]
          exact alone

theorem refills_onFrame (l : Link) (f : Frame) (now : SessionTime) : l.Refills (l.onFrame f now).1 := by
  have turns : l.Turns now (l.onFrame f now).1 := .goes (l.goes_onFrame f now)
  cases l.handles_onFrame f now with
  | aside bond queued | unreadable bond queued => exact turns.refills queued (congrArg LinkBond.connected bond)
  | gap _ _ _ bond queued =>
    have same : (l.onFrame f now).1.bond.connected = l.bond.connected := by rw [bond]
    exact turns.refills queued same
  | greeted _ _ _ established bond queued =>
    have same : (l.onFrame f now).1.bond.connected = l.connected := congrArg LinkBond.connected bond
    cases connected : l.connected with
    | false => exact turns.refills (queued_onFrame_of_unconnected connected f now) same
    | true =>
      refine .again (queued connected) (canTransmit_iff.mpr ⟨same.trans connected, ?_, ?_⟩)
      · rw [bond]
        rfl
      · exact congrArg LinkState.stage established

/-! ## What a call does to the window -/

/-- A call that gives no number: the window slides on, and what is queued with a number was queued before or is
retained. -/
structure Slides (l l' : Link) (claimed : Nat) : Prop where
  session : l'.session = l.session
  nextSeq : l'.nextSeq = l.nextSeq
  capacity : l'.stream.capacity = l.stream.capacity
  drops : ∃ bound, l.stream.Drops l'.stream bound ∧ bound.toNat ≤ claimed
  refills : l.Refills l'
  outbox : ∀ g ∈ l'.outbox.toList, g.seq ≠ unsequenced →
    g ∈ l.outbox.toList ∨ ∃ f ∈ l'.stream.retained, g = f.restamped g.header.ack g.header.flags

/-- A call that leaves the stream alone. -/
theorem Slides.of_stream (stream : l'.stream = l.stream) (refills : l.Refills l')
    (outbox : ∀ g ∈ l'.outbox.toList, g.seq ≠ unsequenced → g ∈ l.outbox.toList ∨ l.stream.Queueable g) :
    l.Slides l' 0 where
  session := congrArg LinkStream.session stream
  nextSeq := congrArg LinkStream.nextSeq stream
  capacity := congrArg LinkStream.capacity stream
  drops := ⟨0, by rw [stream]; exact .refl _ 0, Nat.le_refl _⟩
  refills := refills
  outbox g mem numbered := by
    rw [stream]
    exact (outbox g mem numbered).imp_right fun queueable => queueable.kept numbered

theorem slides_onFrame (l : Link) (f : Frame) (now : SessionTime) :
    l.Slides (l.onFrame f now).1 (f.claims l.session) := by
  have takes := l.takes_onFrame f now
  exact ⟨takes.identity.1, takes.nextSeq, takes.capacity, takes.drops_claims, l.refills_onFrame f now,
    fun g mem numbered => (mem_outbox_onFrame mem).imp_right fun queueable => queueable.kept numbered⟩

/-- **What a call does** to the window: it slides on, or a message is sent with the next number. -/
theorem slides_call (l : Link) (now : SessionTime) (c : LinkCall) :
    l.Slides (l.call now c) (c.claims l.session) ∨ ∃ m f, l.stream.retained.length < l.stream.capacity ∧
      Frame.ofMessage l.session l.localId l.nextSeq m = .ok f ∧ l.call now c = l.enqueue f now := by
  cases c with
  | send m =>
    have turns := l.turns_call now (.send m)
    have call : l.call now (.send m) = (l.send m now).1 := rfl
    rw [call] at turns ⊢
    rcases l.send_cases m now with ⟨fault, sent⟩ | ⟨-, sent⟩ | ⟨-, room, f, written, sent⟩
    · rw [sent]
      exact Or.inl (.of_stream rfl (.keeps rfl id) fun g mem _ => Or.inl mem)
    · rw [sent] at turns ⊢
      refine Or.inl (.of_stream (l.stream_pushUnsequenced m now) ?_ fun g mem numbered => Or.inl ?_)
      · exact turns.refills (l.queued_pushUnsequenced m now)
          (congrArg LinkBond.connected (l.bond_pushUnsequenced m now))
      · rcases mem_outbox_pushUnsequenced mem with old | written
        · exact old
        · exact absurd (Frame.message_ofMessage written).2.1 numbered
    · rw [sent]
      exact Or.inr ⟨m, f, room, written, rfl⟩
  | tick => exact Or.inl (.of_stream (l.stream_tick now) (l.refills_tick now) fun g mem _ => mem_outbox_tick mem)
  | connected =>
    exact Or.inl (.of_stream (l.stream_onConnected now) (l.refills_onConnected now)
      fun g mem _ => mem_outbox_onConnected mem)
  | disconnected =>
    exact Or.inl (.of_stream (l.stream_onDisconnected now) (l.refills_onDisconnected now)
      fun g mem _ => Or.inl (mem_outbox_onDisconnected mem))
  | requeue =>
    exact Or.inl (.of_stream (l.stream_requeue now) (l.refills_requeue now) fun g mem _ => mem_outbox_requeue mem)
  | close =>
    exact Or.inl (.of_stream (l.stream_close now) (refills_of_empty rfl) fun g mem _ => absurd mem List.not_mem_nil)
  | drainOutbound =>
    exact Or.inl (.of_stream l.stream_drainOutbound (refills_of_empty rfl)
      fun g mem _ => absurd mem List.not_mem_nil)
  | drainInbound =>
    exact Or.inl ⟨rfl, rfl, rfl, ⟨0, .refl _ 0, Nat.le_refl _⟩, .keeps rfl id, fun g mem _ => Or.inl mem⟩
  | frame f => exact Or.inl (l.slides_onFrame f now)

/-! ## The window at any time -/

/-- What holds of a link that has given the numbers up to `n`, when the other end has claimed no more than `claimed`. -/
structure Windowed (n claimed : Nat) (l : Link) : Prop where
  next : l.nextSeq.toNat = n + 1
  retained : l.stream.retained.map (fun f => f.seq.toNat) <:+ List.range' 1 n
  bounded : l.stream.retained.length ≤ l.stream.capacity
  queued : l.queued <:+ List.range' 1 n
  /-- Nothing is queued with a number while no numbered frame may be sent. -/
  idle : l.canTransmit = false → l.queued = []
  kept : ∀ g ∈ l.outbox.toList, g.seq ≠ unsequenced → claimed < g.seq.toNat →
    ∃ f ∈ l.stream.retained, g = f.restamped g.header.ack g.header.flags

namespace Windowed

variable {n claimed : Nat}

theorem lastSequence (h : l.Windowed n claimed) : l.lastSequence.toNat = n := by
  have some : (1 : UInt64) ≤ l.nextSeq := by
    rw [UInt64.le_iff_toNat_le, h.next, UInt64.toNat_one]
    exact Nat.le_add_left 1 n
  rw [Link.lastSequence, UInt64.toNat_sub_of_le _ _ some, h.next, UInt64.toNat_one, Nat.add_sub_cancel]

theorem new (config : LinkConfig) (session : SessionId) (localId : ParticipantId) :
    (Link.new config session localId).Windowed 0 0 where
  next := rfl
  retained := List.nil_suffix
  bounded := Nat.zero_le _
  queued := List.nil_suffix
  idle _ := rfl
  kept _ mem := absurd mem List.not_mem_nil

theorem slide {more : Nat} (h : l.Windowed n claimed) (slides : l.Slides l' more) :
    l'.Windowed n (max claimed more) := by
  obtain ⟨bound, ⟨gone, split, low⟩, le⟩ := slides.drops
  have shorter : l'.stream.retained <:+ l.stream.retained := ⟨gone, split.symm⟩
  have retained : l'.stream.retained.map (fun f => f.seq.toNat) <:+ List.range' 1 n :=
    (shorter.map _).trans h.retained
  have bounded : l'.stream.retained.length ≤ l'.stream.capacity := by
    rw [slides.capacity]
    exact Nat.le_trans shorter.length_le h.bounded
  have kept : ∀ g ∈ l'.outbox.toList, g.seq ≠ unsequenced → max claimed more < g.seq.toNat →
      ∃ f ∈ l'.stream.retained, g = f.restamped g.header.ack g.header.flags := by
    intro g mem numbered above
    rcases slides.outbox g mem numbered with old | again
    · obtain ⟨f, before, same⟩ := h.kept g old numbered (Nat.lt_of_le_of_lt (Nat.le_max_left _ _) above)
      rw [split, List.mem_append] at before
      rcases before with dropped | still
      · -- What is let go of is not above what has been claimed.
        have number : g.seq = f.seq := by rw [same]; rfl
        have upTo := UInt64.le_iff_toNat_le.mp (low f dropped)
        rw [number] at above
        omega
      · exact ⟨f, still, same⟩
    · exact again
  have nextSeq : l'.nextSeq.toNat = n + 1 := by rw [slides.nextSeq, h.next]
  cases slides.refills with
  | keeps queued may =>
    refine ⟨nextSeq, retained, bounded, queued ▸ h.queued, fun off => ?_, kept⟩
    rw [queued]
    exact h.idle (Bool.eq_false_iff.mpr fun on => Bool.false_ne_true (off.symm.trans (may on)))
  | empties queued => exact ⟨nextSeq, retained, bounded, queued ▸ List.nil_suffix, fun _ => queued, kept⟩
  | again queued may =>
    refine ⟨nextSeq, retained, bounded, ?_, fun off => ?_, kept⟩
    · rw [queued, Frame.numbers_of_window retained]
      exact retained
    · exact absurd (off.symm.trans may) Bool.false_ne_true

theorem more {claimed' : Nat} (h : l.Windowed n claimed) (le : claimed ≤ claimed') : l.Windowed n claimed' :=
  ⟨h.next, h.retained, h.bounded, h.queued, h.idle,
    fun g mem numbered above => h.kept g mem numbered (Nat.lt_of_le_of_lt le above)⟩

/-- A message is sent with the next number. -/
theorem enqueue (h : l.Windowed n claimed) {m : SyncMessage} {f : Frame}
    (room : l.stream.retained.length < l.stream.capacity)
    (written : Frame.ofMessage l.session l.localId l.nextSeq m = .ok f) (now : SessionTime)
    (lasts : (l.enqueue f now).nextSeq ≠ 0) : (l.enqueue f now).Windowed (n + 1) claimed := by
  have seq : f.seq = l.nextSeq := (Frame.message_ofMessage written).2.1
  have number : f.seq.toNat = n + 1 := by rw [seq, h.next]
  have stream := l.stream_enqueue f now
  have retained : (l.enqueue f now).stream.retained = l.stream.retained ++ [f] := by rw [stream]
  have may : (l.enqueue f now).canTransmit = l.canTransmit := rfl
  refine ⟨?_, ?_, ?_, ?_, fun off => ?_, fun g mem numbered above => ?_⟩
  · show (l.nextSeq + 1).toNat = n + 1 + 1
    rw [toNat_add_one lasts, h.next]
  · rw [retained, List.map_append, List.map_singleton, number]
    exact suffix_next h.retained
  · rw [retained, List.length_append]
    exact room
  · cases allowed : l.canTransmit with
    | true =>
      have inside : f.seq ≠ unsequenced := by
        intro outside
        rw [outside] at number
        exact absurd number (Nat.succ_ne_zero n).symm
      rw [queued_enqueue allowed inside, number]
      exact suffix_next h.queued
    | false =>
      rw [queued_enqueue_of_held allowed, h.idle allowed]
      exact List.nil_suffix
  · rw [may] at off
    rw [queued_enqueue_of_held off]
    exact h.idle off
  · rw [retained]
    rcases mem_outbox_enqueue mem with old | rfl
    · obtain ⟨f', before, same⟩ := h.kept g old numbered above
      exact ⟨f', List.mem_append_left _ before, same⟩
    · exact ⟨g, List.mem_append_right _ (List.mem_singleton.mpr rfl), rfl⟩

end Windowed

/-! ## Whole lives -/

/-- The numbers of a link have not run out in a life: no call has left it without a next number. -/
def Lasting (l : Link) (calls : List (SessionTime × LinkCall)) : Prop :=
  ∀ before, before <+: calls → (l.callAll before).nextSeq ≠ 0

theorem session_callAll (l : Link) (calls : List (SessionTime × LinkCall)) :
    (l.callAll calls).session = l.session := by
  refine callAll_keeps (P := fun l' => l'.session = l.session) (fun {l'} now c same => ?_) calls rfl
  rcases l'.slides_call now c with slides | ⟨m, f, -, -, sent⟩
  · exact slides.session.trans same
  · rw [sent]
    exact same

/-- **A whole life.** -/
theorem windowed_callAll (config : LinkConfig) (session : SessionId) (localId : ParticipantId)
    (calls : List (SessionTime × LinkCall)) (lasting : (Link.new config session localId).Lasting calls) :
    ∃ n, ((Link.new config session localId).callAll calls).Windowed n (LinkCall.highestClaim session calls) := by
  induction calls using List.reverseRecOn with
  | nil => exact ⟨0, .new config session localId⟩
  | append_singleton calls last ih =>
    obtain ⟨now, c⟩ := last
    obtain ⟨n, before⟩ := ih fun early front => lasting early (front.trans (List.prefix_append _ _))
    have lasts := lasting _ (List.prefix_refl _)
    have claimed : LinkCall.highestClaim session (calls ++ [(now, c)]) =
        max (LinkCall.highestClaim session calls) (c.claims session) := List.foldl_append
    have here := session_callAll (Link.new config session localId) calls
    rw [callAll_concat] at lasts ⊢
    rw [claimed]
    rcases Link.slides_call _ now c with slides | ⟨m, f, room, written, sent⟩
    · rw [here] at slides
      exact ⟨n, before.slide slides⟩
    · rw [sent] at lasts ⊢
      exact ⟨n + 1, (before.enqueue room written now lasts).more (Nat.le_max_left _ _)⟩

/-- **What a link promises** about the messages that it holds for the other end, which has claimed to have received
them up to `claimed`. -/
structure KeepsWindow (l : Link) (claimed : Nat) : Prop where
  /-- The numbers of the retained frames are consecutive, and the last of them is the last number given. -/
  retained : l.retained.toList.map (fun f => f.seq.toNat) <:+ List.range' 1 l.lastSequence.toNat
  bounded : l.retained.size ≤ l.config.outboundCapacity
  /-- So are the numbers that are ready to be sent. -/
  queued : Frame.numbers l.outbox.toList <:+ List.range' 1 l.lastSequence.toNat
  /-- What is ready to be sent and has not been claimed is retained, but for its acknowledgement and its flags. -/
  kept : ∀ g ∈ l.outbox.toList, g.seq ≠ unsequenced → claimed < g.seq.toNat →
    ∃ f ∈ l.retained.toList, g = f.restamped g.header.ack g.header.flags
  refused : ∀ m now fault, (l.send m now).2 = .error fault → (l.send m now).1 = l

/-- **The window of a link**, whatever is done to it and at whatever times, as long as there are numbers left. -/
theorem keepsWindow_callAll (config : LinkConfig) (session : SessionId) (localId : ParticipantId)
    (calls : List (SessionTime × LinkCall)) (lasting : (Link.new config session localId).Lasting calls) :
    ((Link.new config session localId).callAll calls).KeepsWindow (LinkCall.highestClaim session calls) := by
  obtain ⟨n, window⟩ := windowed_callAll config session localId calls lasting
  have last : ((Link.new config session localId).callAll calls).lastSequence.toNat = n := window.lastSequence
  refine ⟨?_, ?_, ?_, window.kept, fun m now fault => send_refused⟩
  · rw [last]
    exact window.retained
  · rw [Fifo.size_eq_length]
    exact window.bounded
  · rw [last]
    exact window.queued

/-- A frame of the other end of the examples, outside the sequence. -/
def answer (m : SyncMessage) (ack : UInt64) : LinkCall :=
  let payload := m.encode.toOption.getD []
  .frame ⟨⟨wireVersion, m.type, .none, ⟨1⟩, ⟨2⟩, unsequenced, ack, UInt32.ofNat payload.length⟩, payload⟩

/-- A link that loses its connection after one of its messages has been acknowledged, and sends another one before the
other end has said on the new connection what it has received. -/
def resumedCalls : List (SessionTime × LinkCall) :=
  [(⟨0⟩, .connected), (⟨0⟩, .send (.pause ⟨0⟩)), (⟨1⟩, answer (.hello ⟨2⟩ 0) 0), (⟨2⟩, .send (.resume ⟨2⟩)),
    (⟨2⟩, .drainOutbound), (⟨3⟩, answer (.heartbeat ⟨3⟩) 1), (⟨4⟩, .disconnected), (⟨4⟩, .send (.pause ⟨4⟩)),
    (⟨5⟩, .connected), (⟨5⟩, .send .finish), (⟨6⟩, answer (.hello ⟨2⟩ 2) 1)]

theorem keepsWindow_callAll_resumedCalls :
    Frame.numbers ((Link.new .standard ⟨1⟩ ⟨1⟩).callAll resumedCalls).outbox.toList = [3, 4] ∧
      ((Link.new .standard ⟨1⟩ ⟨1⟩).callAll resumedCalls).lastSequence = 4 ∧
      ((Link.new .standard ⟨1⟩ ⟨1⟩).callAll resumedCalls).KeepsWindow 2 := by
  have lasting : (Link.new .standard ⟨1⟩ ⟨1⟩).Lasting resumedCalls := by
    intro before front
    have each : ∀ before ∈ resumedCalls.inits, ((Link.new .standard ⟨1⟩ ⟨1⟩).callAll before).nextSeq ≠ 0 := by decide
    exact each before ((List.mem_inits before resumedCalls).mpr front)
  have claimed : LinkCall.highestClaim ⟨1⟩ resumedCalls = 2 := by decide
  exact ⟨by decide, by decide, claimed ▸ keepsWindow_callAll .standard ⟨1⟩ ⟨1⟩ resumedCalls lasting⟩

end Link

end Tandem
