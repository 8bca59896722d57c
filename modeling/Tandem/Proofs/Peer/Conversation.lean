import Tandem.Proofs.Peer.Turns
import Tandem.Proofs.Peer.Watermark
/-!
# What the moves of two peers tell

`Tandem.Proofs.Peer.Turns` says how a peer goes on in a deed.  Here this is put together for whole actions and for the
moves of two peers: `Peer.turn_perform` is about everything but a step, `Chronicle.Kept.said_move` says what becomes of
the messages that a peer tells, and `Chronicle.toCome` are those that have not reached the course of the session at the
other end yet.  They may be on the connection, in a link, or held by the peer.
-/

namespace Tandem

/-! ## What has been accepted since -/

/-- What a link has accepted since an earlier moment is what it has been told, or the end of it if it has been told
more than its numbers can tell apart. -/
theorem Link.messages_acceptedSince {l l' : Link} {told : List SyncMessage} (h : l.stream.Accepts l'.stream told) :
    Frame.messages (l'.acceptedSince l) <:+ told ∧
      (told.length < UInt64.size → Frame.messages (l'.acceptedSince l) = told) := by
  obtain ⟨frames, retained, next, carried⟩ := h.retained
  have length : frames.length = told.length := by
    have same := congrArg List.length carried
    rwa [List.length_map, List.length_map] at same
  have read : ∀ n, Frame.messages (frames.drop n) = told.drop n := by
    intro n
    have told_of : ∀ l : List Frame, Frame.messages l = (l.map Frame.message).filterMap Except.toOption := fun l => by
      rw [List.filterMap_map]
      rfl
    rw [told_of, List.map_drop, carried, ← List.map_drop, List.filterMap_map]
    exact List.filterMap_some
  -- The numbers wrap around, and then more has been accepted than they tell.
  have number : (l'.nextSeq - l.nextSeq).toNat = frames.length % UInt64.size := by
    have next : l'.nextSeq = l.nextSeq + UInt64.ofNat frames.length := next
    rw [next, UInt64.add_comm, UInt64.add_sub_cancel]
    exact UInt64.toNat_ofNat
  have kept : l'.retained.toList = l.retained.toList ++ frames := retained
  have few : frames.length % UInt64.size ≤ frames.length := Nat.mod_le _ _
  have since : l'.acceptedSince l = frames.drop (frames.length - frames.length % UInt64.size) := by
    rw [Link.acceptedSince, number, kept, List.length_append, Nat.add_sub_assoc few, List.drop_append]
    rw [List.drop_eq_nil_of_le (Nat.le_add_right _ _), List.nil_append]
    congr 1
    omega
  rw [since, read]
  refine ⟨List.drop_suffix _ _, fun short => ?_⟩
  rw [Nat.mod_eq_of_lt (by omega), Nat.sub_self]
  rfl

namespace Peer

/-! ## Whole actions -/

/-- A peer whose link has taken a frame, or none. -/
structure Hears (p q : Peer) : Prop where
  course : { q.course with stream := p.link.stream } = p.course
  nextSeq : q.link.nextSeq = p.link.nextSeq

theorem Hears.refl (p : Peer) : p.Hears p := ⟨rfl, rfl⟩

theorem Hears.same {p q : Peer} (h : p.Hears q) : q.config = p.config ∧ q.stats.sendFailures = p.stats.sendFailures ∧
    q.held = p.held ∧ q.phase = p.phase := by
  have course := h.course
  simp only [Peer.course, Course.mk.injEq] at course
  obtain ⟨config, -, failures, held, phase⟩ := course
  exact ⟨config, failures, held, phase⟩

/-- What signals a peer to turn the session. -/
inductive Signals (p : Peer) : PeerAction → SyncMessage → Prop where
  | pause : Signals p .pause (.pause p.now)
  | resume : Signals p .resume (.resume p.now)
  /-- The other peer is there. -/
  | start (e : TransportEvent) (t : SessionTime) (waiting : p.phase = .waiting) (host : p.config.role = .host) :
      Signals p (.transport e) (.start t)

theorem hears_took (p : Peer) (f : Frame) : p.Hears (p.took f) := by
  have nextSeq : (p.link.onFrame f p.now).1.nextSeq = p.link.nextSeq := (p.link.takes_onFrame f p.now).nextSeq
  unfold took
  split
  all_goals
    rename_i same
    rw [same] at nextSeq
    exact ⟨rfl, nextSeq⟩

/-- Messages are fetched in steps. -/
theorem fetches_of_notStep (p : Peer) {action : PeerAction} (notStep : ∀ dt, action ≠ .step dt) :
    p.fetches action = [] := by
  cases action with
  | step dt => exact absurd rfl (notStep dt)
  | submit | pause | resume | terminate | escape | transport | pollTransmit | requeueOutbound | drainNotifications =>
    rfl

/-- The peer when its link has taken the frame that an action brings. -/
def noted (p : Peer) : PeerAction → Peer
  | .transport (.frame epoch f) => if p.epoch = some epoch then p.took f else p
  | _ => p

theorem hears_noted (p : Peer) (action : PeerAction) : p.Hears (p.noted action) := by
  unfold noted
  split
  · split
    · exact p.hears_took _
    · exact .refl p
  · exact .refl p

/-- **How the session goes on in an action** that is no step, once the link has taken what it brings. -/
theorem turn_noted (p : Peer) {action : PeerAction} (notStep : ∀ dt, action ≠ .step dt) :
    ∃ told, (p.noted action).GoesOn (p.perform action) told ∨
      ∃ m, (p.noted action).Turned (p.perform action) m told ∧ p.Signals action m := by
  have still : ∀ {q r : Peer}, r.course = q.course → ∃ told, q.GoesOn r told ∨
      ∃ m, q.Turned r m told ∧ p.Signals action m := fun same => ⟨[], Or.inl (.of_eq same)⟩
  cases action with
  | step dt => exact absurd rfl (notStep dt)
  | submit | pollTransmit | drainNotifications => exact still rfl
  | requeueOutbound =>
    exact still (congrArg (fun stream => { p.course with stream := stream }) (p.link.stream_requeue p.now))
  | pause =>
    rcases p.turn_pause with ⟨same, -⟩ | ⟨-, told, turned⟩
    · exact still (congrArg course same)
    · exact ⟨told, Or.inr ⟨_, turned, .pause⟩⟩
  | resume =>
    rcases p.turn_resume with ⟨same, -⟩ | ⟨-, told, turned⟩
    · exact still (congrArg course same)
    · exact ⟨told, Or.inr ⟨_, turned, .resume⟩⟩
  | terminate =>
    obtain ⟨told, goes⟩ := p.goesOn_terminate
    exact ⟨told, Or.inl goes⟩
  | escape =>
    obtain ⟨told, goes⟩ := p.goesOn_terminate
    rw [perform_escape]
    split
    · exact ⟨told, Or.inl goes⟩
    · exact still rfl
  | transport e =>
    cases e with
    | connected epoch address =>
      exact still (congrArg (fun stream => { p.course with stream := stream }) (p.link.stream_onConnected p.now))
    | disconnected epoch reason =>
      refine still ?_
      rw [perform_disconnected]
      split
      · exact congrArg (fun stream => { p.course with stream := stream }) (p.link.stream_onDisconnected p.now)
      · rfl
    | frame epoch f =>
      rw [noted, perform_frame]
      split
      · obtain ⟨config, -, -, phase⟩ := (p.hears_took f).same
        rcases (p.took f).turn_maybeStart p.now with same | ⟨waiting, host, told, turned⟩
        · exact still (congrArg course same)
        · exact ⟨told, Or.inr ⟨_, turned, .start _ _ (phase ▸ waiting) (config ▸ host)⟩⟩
      · exact still rfl

/-- **How the session goes on in an action** that is no step. -/
theorem turn_perform (p : Peer) {action : PeerAction} (notStep : ∀ dt, action ≠ .step dt) :
    ∃ q told, p.Hears q ∧ (q.GoesOn (p.perform action) told ∨
      ∃ m, q.Turned (p.perform action) m told ∧ p.Signals action m) := by
  obtain ⟨told, goes⟩ := p.turn_noted notStep
  exact ⟨p.noted action, told, p.hears_noted action, goes⟩

end Peer

/-! ## The moves of two peers -/

namespace Duet

/-- A move is an action of the peer at an end. -/
structure Acts (x : Duet) (m : DuetMove) (r : Role) (action : PeerAction) : Prop where
  here : (x.move m).peer r = (x.peer r).perform action
  there : (x.move m).peer r.other = x.peer r.other
  fetches : x.fetches r m = (x.peer r).fetches action
  nothing : x.fetches r.other m = []
  own : (∃ isOwn, m = .own r action isOwn) ∨ (action.isOwn = false ∧ ∀ s a isOwn, m ≠ .own s a isOwn)

theorem acts_act {x : Duet} {m : DuetMove} {r : Role} {action : PeerAction}
    (peers : (x.move m).peers = (x.act r action).peers) (notOwn : action.isOwn = false)
    (apart : ∀ s a isOwn, m ≠ .own s a isOwn) : x.Acts m r action where
  here := by
    rw [peer, peers]
    cases r <;> rfl
  there := by
    rw [peer, peers]
    cases r <;> rfl
  fetches := by
    cases m with
    | own s a isOwn => exact absurd rfl (apart s a isOwn)
    | reopen | connected | disconnected | transmit | receive =>
      cases action with
      | transport | pollTransmit => rfl
      | step | submit | pause | resume | terminate | escape | requeueOutbound | drainNotifications => cases notOwn
  nothing := by
    cases m with
    | own s a isOwn => exact absurd rfl (apart s a isOwn)
    | reopen | connected | disconnected | transmit | receive => rfl
  own := Or.inr ⟨notOwn, apart⟩

/-- **A move is an action of one peer**, or nothing happens to the peers. -/
theorem move_cases (x : Duet) (m : DuetMove) :
    (∀ r, (x.move m).peer r = x.peer r ∧ x.fetches r m = [] ∧ ∀ s a isOwn, m ≠ .own s a isOwn) ∨
      ∃ r action, x.Acts m r action := by
  cases m with
  | own r action isOwn =>
    refine Or.inr ⟨r, action, ?_, ?_, if_pos rfl, if_neg ?_, Or.inl ⟨isOwn, rfl⟩⟩
    · cases r <;> rfl
    · cases r <;> rfl
    · cases r <;> decide
  | reopen => exact Or.inl fun r => ⟨rfl, rfl, fun _ _ _ => nofun⟩
  | connected r => exact Or.inr ⟨r, _, acts_act rfl rfl fun _ _ _ => nofun⟩
  | disconnected r reason =>
    cases known : (x.peer r).epoch with
    | none => exact Or.inl fun s => ⟨by rw [move_disconnected_none known], rfl, fun _ _ _ => nofun⟩
    | some epoch => exact Or.inr ⟨r, _, acts_act (by rw [move_disconnected known]) rfl fun _ _ _ => nofun⟩
  | transmit r =>
    refine Or.inr ⟨r, .pollTransmit, acts_act ?_ rfl fun _ _ _ => nofun⟩
    rw [move_transmit]
  | receive r =>
    cases first : x.wires.get r with
    | nil => exact Or.inl fun s => ⟨by rw [move_receive_none (Or.inl first)], rfl, fun _ _ _ => nofun⟩
    | cons f rest =>
      cases connected : x.isConnected r with
      | false => exact Or.inl fun s => ⟨by rw [move_receive_none (Or.inr connected)], rfl, fun _ _ _ => nofun⟩
      | true =>
        refine Or.inr ⟨r, .transport (.frame x.epoch f), acts_act ?_ rfl fun _ _ _ => nofun⟩
        rw [move_receive first connected]
        cases r <;> rfl

end Duet

/-- What a peer has told is what its link has accepted since, up to what the numbers of the link can tell apart. -/
theorem Peer.Tells.accepted {p q p' : Peer} {told : List SyncMessage} (tells : q.Tells p' told)
    (nextSeq : q.link.nextSeq = p.link.nextSeq) : Frame.messages (p'.link.acceptedSince p.link) <:+ told ∧
      (told.length < UInt64.size → Frame.messages (p'.link.acceptedSince p.link) = told) := by
  have since : p'.link.acceptedSince p.link = p'.link.acceptedSince q.link := by
    rw [Link.acceptedSince, Link.acceptedSince, nextSeq]
  rw [since]
  exact Link.messages_acceptedSince tells.accepts

namespace Chronicle

variable {session : SessionId} {c : Chronicle} {m : DuetMove} {x x' : Ends LinkEnd} {r : Role} {action : PeerAction}

/-- The messages of the other peer that a peer has not heeded yet. -/
def toCome (c : Chronicle) (r : Role) : List SyncMessage :=
  (c.duet.peer r).held ++ (c.said.get r.other).drop (c.fetched.get r).length

/-- A peer to which nothing happens says nothing. -/
theorem said_still (still : (c.duet.move m).peer r = c.duet.peer r) : (c.move m).said.get r = c.said.get r := by
  rw [get_said_move, still, acceptedSince_self]
  exact List.append_nil _

/-- **What a peer tells is said.** -/
theorem Kept.said_move (h : (c.move m).Kept session x') {q : Peer} {told : List SyncMessage}
    (tells : q.Tells ((c.duet.move m).peer r) told) (nextSeq : q.link.nextSeq = (c.duet.peer r).link.nextSeq) :
    (c.move m).said.get r = c.said.get r ++ told := by
  have coherent := h.sure.sound.coherent r
  have bounded := coherent.bounded
  have room := h.sure.sound.room r
  rw [records_crossing, h.link r, duet_move] at bounded room
  -- The link still retains what it has accepted in the move, and it retains few.
  obtain ⟨frames, retained, -, carried⟩ := tells.accepts.retained
  have length := congrArg List.length carried
  rw [List.length_map, List.length_map] at length
  have held := congrArg List.length retained
  rw [List.length_append] at held
  rw [get_said_move, (tells.accepted nextSeq).2 (by omega)]

/-- What is fetched in an action comes right behind what has been fetched. -/
theorem Kept.fetches (h : c.Kept session x) (r : Role) (action : PeerAction) :
    c.fetched.get r ++ (c.duet.peer r).fetches action <+: c.said.get r.other := by
  have known : c.fetched.get r ++ (c.duet.peer r).link.inbox.toList <+: c.said.get r.other :=
    h.fetched_eq r ▸ List.take_prefix _ _
  cases action with
  | step => exact known
  | submit | pause | resume | terminate | escape | transport | pollTransmit | requeueOutbound | drainNotifications =>
    exact (List.append_nil (c.fetched.get r)).symm ▸ (List.prefix_append _ _).trans known

/-- What a peer has fetched, the other one has said. -/
theorem Kept.fetched_prefix (h : c.Kept session x) (r : Role) : c.fetched.get r <+: c.said.get r.other :=
  (List.prefix_append _ _).trans (h.fetches r .pause)

/-- **What comes to a peer** while it does nothing. -/
theorem Kept.toCome_still (h : c.Kept session x) {told : List SyncMessage}
    (still : (c.duet.move m).peer r = c.duet.peer r) (nothing : c.duet.fetches r m = [])
    (said : (c.move m).said.get r.other = c.said.get r.other ++ told) : (c.move m).toCome r = c.toCome r ++ told := by
  have known := (h.fetched_prefix r).length_le
  rw [toCome, duet_move, still, get_fetched_move, nothing, List.append_nil, said, List.drop_append_of_le_length known,
    ← List.append_assoc]
  rfl

/-- **What a peer has heeded** does not come to it any more. -/
theorem Kept.toCome_act (h : c.Kept session x) {heeded : List SyncMessage}
    (fetches : c.duet.fetches r m = (c.duet.peer r).fetches action)
    (said : (c.move m).said.get r.other = c.said.get r.other)
    (split : (c.duet.peer r).held ++ (c.duet.peer r).fetches action = heeded ++ ((c.duet.move m).peer r).held) :
    c.toCome r = heeded ++ (c.move m).toCome r := by
  have next : (c.said.get r.other).drop (c.fetched.get r).length = (c.duet.peer r).fetches action ++
      (c.said.get r.other).drop (c.fetched.get r ++ (c.duet.peer r).fetches action).length := by
    obtain ⟨rest, whole⟩ := h.fetches r action
    rw [← whole, List.append_assoc, List.drop_left, ← List.append_assoc, List.drop_left]
  rw [toCome, toCome, next, ← List.append_assoc, split, List.append_assoc, duet_move, get_fetched_move, fetches, said]

end Chronicle

end Tandem
