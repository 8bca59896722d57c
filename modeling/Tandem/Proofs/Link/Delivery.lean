import Tandem.Proofs.Link.Exchange
/-!
# Every message arrives once and in order

Along every honest run the links keep their promise, `LinkEnd.Delivers`.  The argument has two halves.

* `LinkEnd.Coherent` is about one end: its numbers, its retained frames and every frame that it has ever put
  on the network.  Such a frame is `Genuine` for good: it carries a message that has been accepted under its
  number, and it claims at most what the end has received.  So frames on the network need no memory of when
  they were sent, and stale ones are as good as new ones.
* `LinkEnd.Flow` relates two ends: what one has received is the front of what the other has accepted, and
  what has not arrived is still retained.

`Coherent` is kept by every move of its own end.  `Flow a b` is kept by the moves of `a`, which accepts
messages and lets go of frames that `b` has, and by the moves of `b`, which takes the next message.

Numbers have 64 bits and wrap around.  That does no harm as long as fewer than 2⁶⁴ frames can be retained: a link
that has received all the numbers there are takes none after that, and before that the number of a frame
tells its place.
-/

namespace Tandem

open Link

/-- The frame carries a message under its number. -/
def Frame.Carries (f : Frame) (p : UInt64 × SyncMessage) : Prop := f.seq = p.1 ∧ f.message = .ok p.2.arrived

theorem Frame.message_ofMessage {session : SessionId} {sender : ParticipantId} {seq : UInt64} {m : SyncMessage}
    {f : Frame} (h : Frame.ofMessage session sender seq m = .ok f) :
    f.header.ack = 0 ∧ f.Carries (seq, m) := by
  unfold Frame.ofMessage at h
  cases written : m.encode with
  | error fault => simp [written, Bind.bind, Except.bind] at h
  | ok payload =>
    simp only [written, Bind.bind, Except.bind] at h
    split at h
    · cases h
    · cases h
      exact ⟨rfl, rfl, SyncMessage.decode_encode written⟩

@[simp] theorem Frame.carries_restamped (f : Frame) (ack : UInt64) (flags : FrameFlags)
    (p : UInt64 × SyncMessage) : (f.restamped ack flags).Carries p ↔ f.Carries p := Iff.rfl

/-- An element of a list with one more at its end. -/
theorem getElem?_concat {α : Type} {l : List α} {a b : α} {i : Nat} (h : (l ++ [a])[i]? = some b) :
    l[i]? = some b ∨ (i = l.length ∧ b = a) := by
  by_cases before : i < l.length
  · exact Or.inl ((List.getElem?_append_left before).symm.trans h)
  · rw [List.getElem?_append_right (Nat.le_of_not_lt before)] at h
    obtain ⟨place, rfl⟩ := List.getElem?_eq_some_iff.mp h
    simp only [List.length_singleton] at place
    exact Or.inr ⟨by omega, List.getElem_singleton place⟩

/-! ## What a taken frame lets go of -/

namespace LinkStream

/-- Only the first retained frames have been dropped, and only such that are numbered up to a bound. -/
def Drops (s s' : LinkStream) (bound : UInt64) : Prop :=
  ∃ gone, s.retained = gone ++ s'.retained ∧ ∀ f ∈ gone, f.seq ≤ bound

variable {s s' s'' : LinkStream} {bound : UInt64}

theorem Drops.refl (s : LinkStream) (bound : UInt64) : s.Drops s bound := ⟨[], rfl, by simp⟩

theorem Drops.trans (first : s.Drops s' bound) (second : s'.Drops s'' bound) : s.Drops s'' bound := by
  obtain ⟨gone, split, low⟩ := first
  obtain ⟨gone', split', low'⟩ := second
  refine ⟨gone ++ gone', by rw [split, split', List.append_assoc], fun f mem => ?_⟩
  exact (List.mem_append.mp mem).elim (low f) (low' f)

theorem drops_release {n : UInt64} (le : n ≤ bound) : s.Drops (s.release n) bound := by
  refine ⟨s.retained.takeWhile (fun f => f.seq ≤ n), List.takeWhile_append_dropWhile.symm, fun f mem => ?_⟩
  have upTo : f.seq ≤ n := by simpa using List.all_eq_true.mp List.all_takeWhile f mem
  exact UInt64.le_trans upTo le

/-- A frame that claims no more than the bound makes a link drop no more than that. -/
theorem Takes.drops {f : Frame} (h : s.Takes f s') (ack : f.header.ack ≤ bound)
    (hello : ∀ participant resumeFrom, f.message = .ok (.hello participant resumeFrom) → resumeFrom ≤ bound) :
    s.Drops s' bound := by
  cases h with
  | ignored => exact .refl s bound
  | acknowledged => exact drops_release ack
  | resumed _ _ carried => exact (drops_release ack).trans (drops_release (hello _ _ carried))
  | next => exact drops_release ack

end LinkStream

/-! ## One end -/

namespace LinkEnd

/-- The messages that were sent with a number. -/
def numbered (e : LinkEnd) : List (UInt64 × SyncMessage) := e.sent.filter (fun p => !p.2.isLinkLocal)

/-- How many of the numbered messages are not retained any more. -/
def released (e : LinkEnd) : Nat := e.numbered.length - e.link.stream.retained.length

theorem numbered_enqueue (e : LinkEnd) (f : Frame) {m : SyncMessage} (now : SessionTime) (n : UInt64)
    (isLocal : m.isLinkLocal = false) :
    ({ e with link := e.link.enqueue f now, sent := e.sent ++ [(n, m)] } : LinkEnd).numbered =
      e.numbered ++ [(n, m)] := by
  simp [numbered, isLocal]

theorem released_enqueue (e : LinkEnd) (f : Frame) {m : SyncMessage} (now : SessionTime) (n : UInt64)
    (isLocal : m.isLinkLocal = false) :
    ({ e with link := e.link.enqueue f now, sent := e.sent ++ [(n, m)] } : LinkEnd).released = e.released := by
  rw [released, e.numbered_enqueue f now n isLocal, stream_enqueue, List.length_append, List.length_append]
  exact Nat.add_sub_add_right _ 1 _

/-- What may be said of a frame from an end for good. -/
structure Genuine (e : LinkEnd) (f : Frame) : Prop where
  ack : f.header.ack ≤ e.link.stream.through
  hello : ∀ participant resumeFrom, f.message = .ok (.hello participant resumeFrom) →
    resumeFrom ≤ e.link.stream.through
  numbered : f.seq ≠ unsequenced → ∃ p ∈ e.numbered, f.Carries p

/-- What holds of an end at any time. -/
structure Coherent (e : LinkEnd) : Prop where
  next : e.link.stream.nextSeq = UInt64.ofNat (e.numbered.length + 1)
  consecutive : ∀ i p, e.numbered[i]? = some p → p.1 = UInt64.ofNat (i + 1)
  outside : ∀ p ∈ e.sent, p.2.isLinkLocal = true → p.1 = unsequenced
  bounded : e.link.stream.retained.length ≤ e.link.stream.capacity
  fits : e.link.stream.retained.length ≤ e.numbered.length
  /-- What is retained are the last numbered messages. -/
  kept : ∀ i f, e.link.stream.retained[i]? = some f → ∃ p, e.numbered[e.released + i]? = some p ∧ f.Carries p
  queued : ∀ f ∈ e.link.outbox.toList, e.Genuine f
  drained : ∀ f ∈ e.drained, e.Genuine f

theorem isLinkLocal_of_mem_numbered {e : LinkEnd} {p : UInt64 × SyncMessage} (h : p ∈ e.numbered) :
    p.2.isLinkLocal = false := by
  simpa using (List.mem_filter.mp h).2

/-- A frame that carries a numbered message claims nothing but its message. -/
theorem genuine_of_carries {e : LinkEnd} {f : Frame} {p : UInt64 × SyncMessage} (mem : p ∈ e.numbered)
    (carries : f.Carries p) (ack : f.header.ack ≤ e.link.stream.through) : e.Genuine f where
  ack := ack
  hello participant resumeFrom carried := by
    have isLocal := isLinkLocal_of_mem_numbered mem
    rw [carries.2, Except.ok.injEq] at carried
    rw [← SyncMessage.isLinkLocal_arrived, carried] at isLocal
    exact absurd isLocal (by simp [SyncMessage.isLinkLocal])
  numbered _ := ⟨p, mem, carries⟩

/-- A frame stays genuine while its end sends and receives more. -/
theorem Genuine.mono {e e' : LinkEnd} {f : Frame} (h : e.Genuine f) (more : e.numbered ⊆ e'.numbered)
    (through : e.link.stream.through ≤ e'.link.stream.through) : e'.Genuine f where
  ack := UInt64.le_trans h.ack through
  hello participant resumeFrom carried := UInt64.le_trans (h.hello participant resumeFrom carried) through
  numbered inside := by
    obtain ⟨p, mem, carries⟩ := h.numbered inside
    exact ⟨p, more mem, carries⟩

/-- A message outside the sequence, as long as a hello among them is honest. -/
theorem genuine_outside {e : LinkEnd} {f : Frame} {m : SyncMessage}
    (written : Frame.ofMessage e.link.session e.link.localId unsequenced m = .ok f)
    (honest : ∀ participant resumeFrom, m = .hello participant resumeFrom →
      resumeFrom ≤ e.link.stream.through) : e.Genuine f := by
  obtain ⟨ack, seq, carried⟩ := Frame.message_ofMessage written
  refine ⟨by rw [ack]; exact UInt64.zero_le, fun participant resumeFrom same => ?_, fun inside => ?_⟩
  · rw [carried, Except.ok.injEq] at same
    cases m with
    | hello => exact honest _ _ same
    | _ => simp [SyncMessage.arrived] at same
  · exact absurd seq inside

namespace Coherent

variable {e : LinkEnd}

/-- Every retained frame carries a numbered message. -/
theorem carries_of_retained (h : e.Coherent) {f : Frame} (mem : f ∈ e.link.stream.retained) :
    ∃ p ∈ e.numbered, f.Carries p := by
  obtain ⟨i, here⟩ := List.mem_iff_getElem?.mp mem
  obtain ⟨p, there, carries⟩ := h.kept i f here
  exact ⟨p, List.mem_of_getElem? there, carries⟩

/-- Dropping the first retained frames leaves the last numbered messages. -/
theorem kept_of_drops (h : e.Coherent) {s : LinkStream} {bound : UInt64} (drops : e.link.stream.Drops s bound)
    {i : Nat} {f : Frame} (here : s.retained[i]? = some f) :
    ∃ p, e.numbered[e.numbered.length - s.retained.length + i]? = some p ∧ f.Carries p := by
  obtain ⟨gone, split, -⟩ := drops
  have lengths : e.link.stream.retained.length = gone.length + s.retained.length := by
    rw [split, List.length_append]
  have fits := h.fits
  have place : e.numbered.length - s.retained.length + i = e.released + (gone.length + i) := by
    simp only [released]
    omega
  rw [place]
  refine h.kept (gone.length + i) f ?_
  rw [split, List.getElem?_append_right (Nat.le_add_right _ _), Nat.add_sub_cancel_left, here]

end Coherent

/-- The frames that a link queues by itself are genuine. -/
theorem genuine_of_queueable {e : LinkEnd} {f : Frame}
    (carried : ∀ g ∈ e.link.stream.retained, ∃ p ∈ e.numbered, g.Carries p)
    (queueable : e.link.stream.Queueable f) : e.Genuine f := by
  cases queueable with
  | greeting written =>
    refine genuine_outside written (fun _ _ same => ?_)
    cases same
    exact UInt64.le_refl _
  | heartbeat time written => exact genuine_outside written (fun _ _ same => by cases same)
  | again flags kept =>
    obtain ⟨p, mem, carries⟩ := carried _ kept
    exact genuine_of_carries mem ((Frame.carries_restamped _ _ _ _).mpr carries) UInt64.zero_le

namespace Coherent

variable {e e' : LinkEnd}

/-- An end that accepts no message stays coherent: its link may drop retained frames, receive more and queue
frames of its own. -/
theorem relink (h : e.Coherent) {bound : UInt64} (sent : e'.sent = e.sent) (drained : e'.drained = e.drained)
    (nextSeq : e'.link.stream.nextSeq = e.link.stream.nextSeq)
    (capacity : e'.link.stream.capacity = e.link.stream.capacity)
    (drops : e.link.stream.Drops e'.link.stream bound)
    (through : e.link.stream.through ≤ e'.link.stream.through)
    (outbox : ∀ f ∈ e'.link.outbox.toList, f ∈ e.link.outbox.toList ∨ e'.link.stream.Queueable f) :
    e'.Coherent := by
  have numbered : e'.numbered = e.numbered := by rw [LinkEnd.numbered, sent]; rfl
  have shorter : e'.link.stream.retained.length ≤ e.link.stream.retained.length := by
    obtain ⟨gone, split, -⟩ := drops
    rw [split, List.length_append]
    exact Nat.le_add_left _ _
  have carried : ∀ g ∈ e'.link.stream.retained, ∃ p ∈ e'.numbered, g.Carries p := by
    obtain ⟨gone, split, -⟩ := drops
    intro g mem
    rw [numbered]
    exact h.carries_of_retained (split ▸ List.mem_append_right gone mem)
  have stays : ∀ f, e.Genuine f → e'.Genuine f := fun f genuine =>
    genuine.mono (by rw [numbered]; exact fun _ => id) through
  refine ⟨?_, ?_, ?_, ?_, ?_, ?_, ?_, ?_⟩
  · rw [nextSeq, numbered, h.next]
  · rw [numbered]
    exact h.consecutive
  · rw [sent]
    exact h.outside
  · rw [capacity]
    exact Nat.le_trans shorter h.bounded
  · rw [numbered]
    exact Nat.le_trans shorter h.fits
  · intro i f here
    rw [released, numbered]
    exact h.kept_of_drops drops here
  · exact fun f mem => (outbox f mem).elim (fun old => stays f (h.queued f old)) (genuine_of_queueable carried)
  · rw [drained]
    exact fun f mem => stays f (h.drained f mem)

/-- An end stays coherent when the stream of its link does not change. -/
theorem quiet (h : e.Coherent) {link : Link} (stream : link.stream = e.link.stream)
    (outbox : ∀ f ∈ link.outbox.toList, f ∈ e.link.outbox.toList ∨ e.link.stream.Queueable f) :
    ({ e with link := link } : LinkEnd).Coherent :=
  h.relink rfl rfl (by rw [stream]) (by rw [stream]) (by rw [stream]; exact .refl _ 0)
    (by rw [stream]; exact UInt64.le_refl _) (by rw [stream]; exact outbox)

/-- Draining stamps the queued frames with what has been received. -/
theorem drainOutbound (h : e.Coherent) : ({ e with
    link := e.link.drainOutbound.2, drained := e.drained ++ e.link.drainOutbound.1 } : LinkEnd).Coherent where
  next := h.next
  consecutive := h.consecutive
  outside := h.outside
  bounded := h.bounded
  fits := h.fits
  kept := h.kept
  queued f mem := absurd mem List.not_mem_nil
  drained f mem := by
    rcases List.mem_append.mp mem with old | new
    · exact (h.drained f old).mono (fun _ => id) (UInt64.le_refl _)
    · obtain ⟨g, queued, rfl⟩ := List.mem_map.mp new
      have genuine := h.queued g queued
      exact ⟨UInt64.le_refl _, genuine.hello, genuine.numbered⟩

/-- A message outside the sequence is not kept. -/
theorem sendOutside (h : e.Coherent) {m : SyncMessage} {now : SessionTime} (isLocal : m.isLinkLocal = true)
    (honest : ∀ participant resumeFrom, m = .hello participant resumeFrom →
      resumeFrom ≤ e.link.stream.through) :
    ({ e with link := e.link.pushUnsequenced m now, sent := e.sent ++ [(unsequenced, m)] } :
      LinkEnd).Coherent := by
  have stream := stream_pushUnsequenced e.link m now
  have numbered : ({ e with link := e.link.pushUnsequenced m now, sent := e.sent ++ [(unsequenced, m)] } :
      LinkEnd).numbered = e.numbered := by simp [LinkEnd.numbered, isLocal]
  have outside : ∀ p ∈ e.sent ++ [(unsequenced, m)], p.2.isLinkLocal = true → p.1 = unsequenced := by
    intro p mem
    rcases List.mem_append.mp mem with old | new
    · exact h.outside p old
    · rw [List.mem_singleton.mp new]
      exact fun _ => rfl
  have stays : ∀ f, e.Genuine f → ({ e with
      link := e.link.pushUnsequenced m now, sent := e.sent ++ [(unsequenced, m)] } : LinkEnd).Genuine f :=
    fun f genuine => genuine.mono (by rw [numbered]; exact fun _ => id) (by rw [stream]; exact UInt64.le_refl _)
  refine ⟨?_, ?_, outside, ?_, ?_, ?_, ?_, ?_⟩
  · rw [numbered, stream]
    exact h.next
  · rw [numbered]
    exact h.consecutive
  · rw [stream]
    exact h.bounded
  · rw [numbered, stream]
    exact h.fits
  · rw [released, numbered, stream]
    exact h.kept
  · intro f mem
    rcases Link.mem_outbox_pushUnsequenced mem with old | written
    · exact stays f (h.queued f old)
    · exact stays f (genuine_outside written honest)
  · exact fun f mem => stays f (h.drained f mem)

/-- A numbered message is kept in the next place. -/
theorem sendNumbered (h : e.Coherent) {m : SyncMessage} {f : Frame} {now : SessionTime}
    (isLocal : m.isLinkLocal = false) (room : e.link.stream.retained.length < e.link.stream.capacity)
    (written : Frame.ofMessage e.link.session e.link.localId e.link.nextSeq m = .ok f) :
    ({ e with link := e.link.enqueue f now, sent := e.sent ++ [(e.link.nextSeq, m)] } :
      LinkEnd).Coherent := by
  obtain ⟨ack, carries⟩ := Frame.message_ofMessage written
  have next : e.link.nextSeq = UInt64.ofNat (e.numbered.length + 1) := h.next
  have stream := stream_enqueue e.link f now
  have numbered := e.numbered_enqueue f now e.link.nextSeq isLocal
  have fits := h.fits
  have stays : ∀ g, e.Genuine g → ({ e with
      link := e.link.enqueue f now, sent := e.sent ++ [(e.link.nextSeq, m)] } : LinkEnd).Genuine g :=
    fun g genuine => genuine.mono (by rw [numbered]; exact List.subset_append_left _ _)
      (by rw [stream]; exact UInt64.le_refl _)
  refine ⟨?_, ?_, ?_, ?_, ?_, ?_, ?_, ?_⟩
  · rw [numbered, stream, List.length_append, List.length_singleton]
    exact (congrArg (· + 1) h.next).trans (UInt64.ofNat_add _ 1).symm
  · rw [numbered]
    intro i p here
    rcases getElem?_concat here with old | ⟨rfl, rfl⟩
    · exact h.consecutive i p old
    · exact next
  · intro p mem
    rcases List.mem_append.mp mem with old | new
    · exact h.outside p old
    · rw [List.mem_singleton.mp new]
      intro outside
      simp [isLocal] at outside
  · rw [stream, List.length_append]
    exact room
  · rw [numbered, stream, List.length_append, List.length_append]
    exact Nat.succ_le_succ fits
  · intro i g here
    rw [stream] at here
    rw [e.released_enqueue f now _ isLocal, numbered]
    rcases getElem?_concat here with old | ⟨rfl, rfl⟩
    · obtain ⟨p, there, same⟩ := h.kept i g old
      exact ⟨p, List.getElem?_append_left (List.getElem?_eq_some_iff.mp there).1 ▸ there, same⟩
    · refine ⟨_, ?_, carries⟩
      rw [released, Nat.sub_add_cancel fits]
      exact List.getElem?_concat_length
  · intro g mem
    rcases Link.mem_outbox_enqueue mem with old | rfl
    · exact stays g (h.queued g old)
    · refine genuine_of_carries (p := (e.link.nextSeq, m)) ?_ carries (by rw [ack]; exact UInt64.zero_le)
      rw [numbered]
      exact List.mem_append_right _ (List.mem_singleton.mpr rfl)
  · exact fun g mem => stays g (h.drained g mem)

/-- **One end stays coherent** along every honest move, if the frames that arrive come from an end. -/
theorem move {o : LinkEnd} {arriving : List Frame} {action : LinkAction} (h : e.Coherent)
    (genuine : ∀ f ∈ arriving, o.Genuine f)
    (honest : ∀ participant resumeFrom, action = .send (.hello participant resumeFrom) →
      resumeFrom ≤ e.link.stream.through)
    (moves : e.Moves arriving action e') : e'.Coherent := by
  cases moves with
  | quiet stream outbox => exact h.quiet stream outbox
  | outside m now asked isLocal =>
    exact h.sendOutside isLocal (fun participant resumeFrom same => honest participant resumeFrom (same ▸ asked))
  | numbered m f now isLocal room written => exact h.sendNumbered isLocal room written
  | drained => exact h.drainOutbound
  | fetched =>
    exact h.relink rfl rfl rfl rfl (.refl _ 0) (UInt64.le_refl _) (fun _ => Or.inl)
  | took f now arrives =>
    have takes := takes_onFrame e.link f now
    have claims := genuine f arrives
    exact h.relink rfl rfl takes.nextSeq takes.capacity (takes.drops claims.ack claims.hello) takes.through
      (fun _ => mem_outbox_onFrame)

end Coherent

/-! ## From one end to the other -/

/-- What one end has received, seen from the end that sends. -/
structure Flow (a b : LinkEnd) : Prop where
  enough : b.link.stream.through.toNat ≤ a.numbered.length
  inOrder : b.delivered = (a.numbered.take b.link.stream.through.toNat).map (fun p => p.2.arrived)
  /-- Only what has arrived is not retained any more, unless no number is left. -/
  released : a.released ≤ b.link.stream.through.toNat ∨ b.link.stream.through.toNat + 1 = UInt64.size

namespace Flow

variable {a a' b b' : LinkEnd}

/-- As long as there are numbers left, only what has arrived is not retained any more. -/
theorem released_le (h : Flow a b) (below : b.link.stream.through.toNat + 1 < UInt64.size) :
    a.released ≤ b.link.stream.through.toNat :=
  h.released.resolve_right (Nat.ne_of_lt below)

/-- The sender drops only what has arrived. -/
theorem drop (h : Flow a b) (coherent : a.Coherent) (numbered : a'.numbered = a.numbered)
    (drops : a.link.stream.Drops a'.link.stream b.link.stream.through) : Flow a' b := by
  refine ⟨numbered ▸ h.enough, numbered ▸ h.inOrder, ?_⟩
  by_cases full : b.link.stream.through.toNat + 1 = UInt64.size
  · exact Or.inr full
  · have arrived := h.released.resolve_right full
    obtain ⟨gone, split, low⟩ := drops
    have fits := coherent.fits
    have lengths : a.link.stream.retained.length = gone.length + a'.link.stream.retained.length := by
      rw [split, List.length_append]
    refine Or.inl (Nat.le_of_not_lt fun beyond => ?_)
    -- The frame after the last one that has arrived would be among the dropped ones.
    have place : b.link.stream.through.toNat - a.released < gone.length := by
      simp only [LinkEnd.released, numbered] at arrived beyond ⊢
      omega
    have here : a.link.stream.retained[b.link.stream.through.toNat - a.released]? =
        some gone[b.link.stream.through.toNat - a.released] := by
      rw [split, List.getElem?_append_left place, List.getElem?_eq_getElem place]
    obtain ⟨p, there, seq, -⟩ := coherent.kept _ _ here
    rw [Nat.add_sub_cancel' arrived] at there
    have dropped := low _ (List.getElem_mem place)
    rw [seq, coherent.consecutive _ p there, UInt64.le_iff_toNat_le, UInt64.toNat_ofNat'] at dropped
    have := b.link.stream.through.toNat_lt
    rw [Nat.mod_eq_of_lt (Nat.lt_of_le_of_ne this full)] at dropped
    exact Nat.not_succ_le_self _ dropped

/-- An end that only accepts another message goes on as before. -/
theorem extend (h : Flow a b) {p : UInt64 × SyncMessage} (numbered : a'.numbered = a.numbered ++ [p])
    (released : a'.released = a.released) : Flow a' b := by
  refine ⟨?_, ?_, released ▸ h.released⟩
  · rw [numbered, List.length_append]
    exact Nat.le_add_right_of_le h.enough
  · rw [numbered, List.take_append_of_le_length h.enough]
    exact h.inOrder

/-- An end that receives nothing new goes on as before. -/
theorem keep (h : Flow a b) (through : b'.link.stream.through = b.link.stream.through)
    (delivered : b'.delivered = b.delivered) : Flow a b' := by
  refine ⟨?_, ?_, ?_⟩
  · rw [through]
    exact h.enough
  · rw [through, delivered]
    exact h.inOrder
  · rw [through]
    exact h.released

/-- The next frame brings the next message. -/
theorem receive (h : Flow a b) (coherent : a.Coherent) (room : a.link.stream.capacity < UInt64.size) {f : Frame}
    {m : SyncMessage} (genuine : a.Genuine f) (inside : f.seq ≠ unsequenced) (carried : f.message = .ok m)
    (inPlace : f.seq = b.link.stream.through + 1) (through : b'.link.stream.through = f.seq)
    (delivered : b'.delivered = b.delivered ++ [m]) : Flow a b' := by
  obtain ⟨p, mem, seq, carries⟩ := genuine.numbered inside
  obtain ⟨i, there⟩ := List.mem_iff_getElem?.mp mem
  obtain ⟨lt, -⟩ := List.getElem?_eq_some_iff.mp there
  -- The number tells the place, as fewer than all numbers can be waiting.
  have place : i = b.link.stream.through.toNat ∧ f.seq.toNat = b.link.stream.through.toNat + 1 := by
    have number : (UInt64.ofNat (i + 1)).toNat = f.seq.toNat := by rw [seq, coherent.consecutive i p there]
    have notLast := UInt64.lt_iff_toNat_lt.mp (lt_add_one (inPlace ▸ inside))
    have next := congrArg UInt64.toNat inPlace
    have below := b.link.stream.through.toNat_lt
    have fits := coherent.fits
    have bounded := coherent.bounded
    have old := h.released
    rw [UInt64.toNat_ofNat'] at number
    rw [UInt64.toNat_add, UInt64.toNat_one] at next notLast
    simp only [LinkEnd.released, UInt64.size] at room old
    omega
  obtain ⟨rfl, next⟩ := place
  have same : m = p.2.arrived := Except.ok.inj (carried.symm.trans carries)
  refine ⟨?_, ?_, ?_⟩
  · rw [through, next]
    exact lt
  · rw [through, next, delivered, h.inOrder, List.take_add_one, there, List.map_append, same]
    rfl
  · rw [through, next]
    have below := f.seq.toNat_lt
    have old := h.released
    simp only [UInt64.size] at old ⊢
    omega

/-- The moves of the sender leave what has been received in place. -/
theorem moveSender (h : Flow a b) (coherent : a.Coherent) {arriving : List Frame} {action : LinkAction}
    (genuine : ∀ f ∈ arriving, b.Genuine f) (moves : a.Moves arriving action a') : Flow a' b := by
  cases moves with
  | quiet stream => exact h.drop coherent rfl (by rw [stream]; exact .refl _ _)
  | outside m now asked isLocal =>
    refine h.drop coherent (by simp [LinkEnd.numbered, isLocal]) ?_
    rw [stream_pushUnsequenced]
    exact .refl _ _
  | numbered m f now isLocal room written =>
    exact h.extend (a.numbered_enqueue f now _ isLocal) (a.released_enqueue f now _ isLocal)
  | drained => exact h.drop coherent rfl (.refl _ _)
  | fetched => exact h.drop coherent rfl (.refl _ _)
  | took f now arrives =>
    have claims := genuine f arrives
    exact h.drop coherent rfl ((takes_onFrame a.link f now).drops claims.ack claims.hello)

/-- The moves of the receiver add nothing but the next message. -/
theorem moveReceiver (h : Flow a b) (coherent : a.Coherent) (room : a.link.stream.capacity < UInt64.size)
    {arriving : List Frame} {action : LinkAction} (genuine : ∀ f ∈ arriving, a.Genuine f)
    (moves : b.Moves arriving action b') : Flow a b' := by
  cases moves with
  | quiet stream =>
    have inbox := congrArg LinkStream.inbox stream
    exact h.keep (congrArg LinkStream.through stream) (congrArg (b.fetched ++ ·) inbox)
  | outside m now asked isLocal =>
    have stream := stream_pushUnsequenced b.link m now
    have inbox := congrArg LinkStream.inbox stream
    exact h.keep (congrArg LinkStream.through stream) (congrArg (b.fetched ++ ·) inbox)
  | numbered m f now isLocal room written => exact h.keep rfl rfl
  | drained => exact h.keep rfl rfl
  | fetched => exact h.keep rfl (by simp [delivered, drainInbound])
  | took f now arrives =>
    have claims := genuine f arrives
    have takes := takes_onFrame b.link f now
    rcases takes.received with ⟨through, inbox⟩ | ⟨m, inside, carried, inPlace, through, inbox⟩
    · exact h.keep through (congrArg (b.fetched ++ ·) inbox)
    · refine h.receive coherent room claims inside carried inPlace through ?_
      exact (congrArg (b.fetched ++ ·) inbox).trans (List.append_assoc _ _ _).symm

end Flow

/-! ## The promise -/

/-- The first messages have numbers other than zero. -/
theorem accepted_eq {e : LinkEnd} (h : e.Coherent) {n : Nat} (below : n < UInt64.size) :
    e.accepted = e.numbered.take n ++ (e.numbered.drop n).filter (fun p => p.1 ≠ unsequenced) := by
  have fromNumbered : e.accepted = e.numbered.filter (fun p => p.1 ≠ unsequenced) := by
    rw [accepted, numbered, List.filter_filter]
    refine List.filter_congr fun p mem => ?_
    cases isLocal : p.2.isLinkLocal with
    | false => simp
    | true => simp [h.outside p mem isLocal]
  have front : (e.numbered.take n).filter (fun p => p.1 ≠ unsequenced) = e.numbered.take n := by
    refine List.filter_eq_self.mpr fun p mem => ?_
    obtain ⟨i, here⟩ := List.mem_iff_getElem?.mp mem
    rw [List.getElem?_take] at here
    split at here
    · have number := congrArg UInt64.toNat (h.consecutive i p here)
      rw [UInt64.toNat_ofNat'] at number
      simp only [ne_eq, decide_not, Bool.not_eq_true', decide_eq_false_iff_not, ← UInt64.toNat_inj, number]
      simp only [unsequenced, UInt64.size, UInt64.toNat_zero] at below ⊢
      omega
    · cases here
  rw [fromNumbered, ← front, ← List.filter_append, List.take_append_drop]

/-- Accepted messages are numbered one after the other. -/
theorem number_of_accepted {e : LinkEnd} (h : e.Coherent) {i : Nat} {p : UInt64 × SyncMessage}
    (here : e.accepted[i]? = some p) (below : i + 1 < UInt64.size) : p.1.toNat = i + 1 := by
  rw [accepted_eq h below] at here
  by_cases short : i < (e.numbered.take (i + 1)).length
  · rw [List.getElem?_append_left short, List.getElem?_take_of_lt (Nat.lt_succ_self i)] at here
    rw [h.consecutive i p here, UInt64.toNat_ofNat']
    exact Nat.mod_eq_of_lt below
  · -- There are no more numbered messages than that.
    rw [List.length_take] at short
    rw [List.drop_eq_nil_of_le (by omega), List.filter_nil, List.append_nil] at here
    exact absurd (List.getElem?_eq_some_iff.mp here).1 (by rw [List.length_take]; exact short)

/-- What has not arrived is retained. -/
theorem retained_of_later {a b : LinkEnd} (h : a.Coherent) (flow : Flow a b) {p : UInt64 × SyncMessage}
    (mem : p ∈ a.numbered) (later : b.link.stream.through < p.1) :
    ∃ f ∈ a.link.stream.retained, f.Carries p := by
  obtain ⟨i, here⟩ := List.mem_iff_getElem?.mp mem
  obtain ⟨lt, -⟩ := List.getElem?_eq_some_iff.mp here
  have waiting : a.released ≤ i := by
    have old := flow.released
    rw [UInt64.lt_iff_toNat_lt, h.consecutive i p here, UInt64.toNat_ofNat'] at later
    simp only [UInt64.size] at old
    omega
  have place : i - a.released < a.link.stream.retained.length := by
    have fits := h.fits
    simp only [LinkEnd.released] at waiting ⊢
    omega
  obtain ⟨q, there, carries⟩ := h.kept _ _ (List.getElem?_eq_getElem place)
  rw [Nat.add_sub_cancel' waiting, here, Option.some.injEq] at there
  exact ⟨_, List.getElem_mem place, there ▸ carries⟩

/-- An end that is coherent, and from which everything flows, keeps its promise. -/
theorem delivers_of_flow {a b : LinkEnd} (h : a.Coherent) (flow : Flow a b) : a.Delivers b := by
  have accepted := accepted_eq h b.link.stream.through.toNat_lt
  have front : (a.numbered.take b.link.stream.through.toNat).length = b.link.stream.through.toNat :=
    List.length_take_of_le flow.enough
  refine ⟨?_, ?_, ?_, fun i p here below => number_of_accepted h here below,
    fun m now fault => Link.send_refused⟩
  · show b.link.stream.through.toNat ≤ _
    rw [accepted, List.length_append, front]
    exact Nat.le_add_right _ _
  · show _ = (a.accepted.take b.link.stream.through.toNat).map _
    rw [accepted, List.take_left' front]
    exact flow.inOrder
  · intro p mem later
    refine retained_of_later h flow ?_ later
    rw [accepted, List.mem_append] at mem
    exact mem.elim List.mem_of_mem_take (fun rest => List.mem_of_mem_drop (List.mem_filter.mp rest).1)

end LinkEnd

/-! ## Whole runs -/

/-- What holds of an exchange at any time. -/
structure Exchange.Sound (x : Ends LinkEnd) : Prop where
  coherent : ∀ side, (x.get side).Coherent
  room : ∀ side, (x.get side).link.stream.capacity < UInt64.size
  flow : ∀ side, LinkEnd.Flow (x.get side) (x.get side.other)

/-- What happens at one end keeps an exchange sound, if the frames that arrive come from the other end. -/
theorem Exchange.Sound.perform {x : Ends LinkEnd} {side : Role} {arriving : List Frame} {now : SessionTime}
    {action : LinkAction} (h : Exchange.Sound x) (genuine : ∀ f ∈ arriving, (x.get side.other).Genuine f)
    (honest : ∀ participant resumeFrom, action = .send (.hello participant resumeFrom) →
      resumeFrom ≤ (x.get side).link.receivedThrough) :
    Exchange.Sound (x.set side ((x.get side).perform arriving now action)) := by
  have moves := (x.get side).moves_perform arriving now action
  have coherent := h.coherent side
  have sends := (h.flow side).moveSender coherent genuine moves
  have receives : LinkEnd.Flow (x.get side.other) ((x.get side).perform arriving now action) := by
    have flow := h.flow side.other
    rw [Role.other_other] at flow
    exact flow.moveReceiver (h.coherent _) (h.room _) genuine moves
  refine ⟨Role.forall_of side ?_ ?_, Role.forall_of side ?_ ?_, Role.forall_of side ?_ ?_⟩
  · rw [Ends.get_set_self]
    exact coherent.move genuine honest moves
  · rw [Ends.get_set_other]
    exact h.coherent _
  · rw [Ends.get_set_self, moves.capacity]
    exact h.room _
  · rw [Ends.get_set_other]
    exact h.room _
  · rw [Ends.get_set_self, Ends.get_set_other]
    exact sends
  · rw [Role.other_other, Ends.get_set_self, Ends.get_set_other]
    exact receives

namespace LinkMove

/-- The end where a move happens, after it. -/
theorem get_act_side (x : Ends LinkEnd) (move : LinkMove) : (act x move).get move.side =
    (x.get move.side).perform (x.get move.side.other).drained move.now move.action :=
  x.get_set_self move.side _

/-- The other end does not change. -/
theorem get_act_other (x : Ends LinkEnd) (move : LinkMove) :
    (act x move).get move.side.other = x.get move.side.other :=
  x.get_set_other move.side _

/-- **One step.** -/
theorem sound_act {x : Ends LinkEnd} {move : LinkMove} (h : Exchange.Sound x) (honest : move.Honest x) :
    Exchange.Sound (act x move) :=
  h.perform (h.coherent move.side.other).drained honest

/-- **A whole run.** -/
theorem sound_run {x : Ends LinkEnd} {moves : List LinkMove} (h : Exchange.Sound x)
    (honest : HonestRun x moves) : Exchange.Sound (run x moves) := by
  induction moves generalizing x with
  | nil => exact h
  | cons move rest ih => exact ih (sound_act h honest.1) honest.2

end LinkMove

/-- Two new links of a session. -/
def Exchange.fresh (session : SessionId) (config : Ends LinkConfig) (localId : Ends ParticipantId) :
    Ends LinkEnd :=
  ⟨.fresh config.host session localId.host, .fresh config.guest session localId.guest⟩

theorem Exchange.sound_fresh {session : SessionId} {config : Ends LinkConfig} {localId : Ends ParticipantId}
    (room : ∀ side, (config.get side).outboundCapacity < UInt64.size) :
    Exchange.Sound (Exchange.fresh session config localId) := by
  have coherent : ∀ config localId, (LinkEnd.fresh config session localId).Coherent := fun config localId =>
    ⟨rfl, by simp [LinkEnd.fresh, LinkEnd.numbered], fun p mem => absurd mem List.not_mem_nil,
      Nat.zero_le _, Nat.zero_le _, fun i f here => absurd here (by simp [LinkEnd.fresh, new, stream]),
      fun f mem => absurd mem List.not_mem_nil, fun f mem => absurd mem List.not_mem_nil⟩
  have flow : ∀ config localId config' localId',
      LinkEnd.Flow (.fresh config session localId) (.fresh config' session localId') :=
    fun _ _ _ _ => ⟨Nat.zero_le _, rfl, Or.inl (Nat.zero_le _)⟩
  refine ⟨fun side => ?_, fun side => ?_, fun side => ?_⟩
  · cases side <;> exact coherent _ _
  · cases side
    · exact room .host
    · exact room .guest
  · cases side <;> exact flow _ _ _ _

/-- **Every message arrives once and in order.**  After every honest run, whatever the network did, each end has
received the front of what the other one has accepted, and the rest is still retained. -/
theorem delivers_run {session : SessionId} {config : Ends LinkConfig} {localId : Ends ParticipantId}
    {moves : List LinkMove} (room : ∀ side, (config.get side).outboundCapacity < UInt64.size)
    (honest : LinkMove.HonestRun (Exchange.fresh session config localId) moves) (side : Role) :
    ((LinkMove.run (Exchange.fresh session config localId) moves).get side).Delivers
      ((LinkMove.run (Exchange.fresh session config localId) moves).get side.other) := by
  have sound := LinkMove.sound_run (Exchange.sound_fresh room) honest
  exact LinkEnd.delivers_of_flow (sound.coherent side) (sound.flow side)

/-- A session with two messages, of which the first is lost with a dropped connection and sent again. -/
def lossySession : List LinkMove :=
  [⟨.host, ⟨0⟩, .connected⟩, ⟨.guest, ⟨0⟩, .connected⟩, ⟨.host, ⟨0⟩, .drainOutbound⟩,
    ⟨.guest, ⟨0⟩, .drainOutbound⟩, ⟨.guest, ⟨1⟩, .deliver 0⟩, ⟨.host, ⟨1⟩, .deliver 0⟩,
    ⟨.host, ⟨2⟩, .send (.pause ⟨2⟩)⟩, ⟨.host, ⟨2⟩, .drainOutbound⟩, ⟨.guest, ⟨3⟩, .disconnected⟩,
    ⟨.host, ⟨3⟩, .disconnected⟩, ⟨.host, ⟨3⟩, .send (.resume ⟨3⟩)⟩, ⟨.guest, ⟨4⟩, .connected⟩,
    ⟨.host, ⟨4⟩, .connected⟩, ⟨.guest, ⟨4⟩, .send (.hello ⟨2⟩ 0)⟩, ⟨.guest, ⟨4⟩, .drainOutbound⟩,
    ⟨.host, ⟨5⟩, .deliver 2⟩, ⟨.host, ⟨5⟩, .drainOutbound⟩, ⟨.guest, ⟨6⟩, .deliver 3⟩,
    ⟨.guest, ⟨6⟩, .deliver 4⟩, ⟨.guest, ⟨7⟩, .deliver 1⟩, ⟨.guest, ⟨7⟩, .drainInbound⟩]

/-- The two ends of the examples, before anything happens. -/
def newSession : Ends LinkEnd :=
  Exchange.fresh ⟨1⟩ ⟨.standard, .standard⟩ ⟨⟨1⟩, ⟨2⟩⟩

theorem delivers_run_lossySession :
    ((LinkMove.run newSession lossySession).get .guest).delivered = [.pause ⟨2⟩, .resume ⟨3⟩] ∧
      ((LinkMove.run newSession lossySession).get .host).Delivers
        ((LinkMove.run newSession lossySession).get .guest) := by
  refine ⟨by decide, delivers_run (fun side => by cases side <;> decide) ?_ .host⟩
  simp [lossySession, LinkMove.HonestRun, LinkMove.Honest]

/-- A hello that claims to have received a message before it has. -/
def boastfulSession : List LinkMove :=
  [⟨.host, ⟨0⟩, .send .finish⟩, ⟨.guest, ⟨0⟩, .connected⟩, ⟨.guest, ⟨0⟩, .send (.hello ⟨2⟩ 1)⟩,
    ⟨.guest, ⟨0⟩, .drainOutbound⟩, ⟨.host, ⟨0⟩, .deliver 1⟩]

/-- Without honest hellos a message can be lost: the host believes that its message has arrived. -/
theorem not_delivers_boastfulSession : ¬ ((LinkMove.run newSession boastfulSession).get .host).Delivers
    ((LinkMove.run newSession boastfulSession).get .guest) := by
  intro delivers
  obtain ⟨f, kept, -⟩ := delivers.kept (1, .finish) (by decide) (by decide)
  have empty : ((LinkMove.run newSession boastfulSession).get .host).link.retained.toList = [] := by decide
  rw [empty] at kept
  exact List.not_mem_nil kept

end Tandem
