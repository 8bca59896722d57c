import Mathlib.Data.List.DropRight
import Tandem.Proofs.Link.Connection
/-!
# After a reconnect everything has arrived

Whatever a network has done to the frames of a session: once both links have been given a new connection that loses
nothing, four pumps are enough.  The first two carry the hellos and what one side lacks, the third what the other
side lacks, and the fourth has nothing left to carry.

* `Frame.Follow` says of frames that they are the next ones after a number, without a gap, and can be read.  A link
  takes such frames one after the other, and no verdict is a fault (`tookAll_of_follow`).
* `Link.Mends` is what a reconnect needs of each link: it still retains the frames that follow what the other one
  has, and the other one expects nobody else.  It speaks of links only, and `Link.mended_exchange` walks through the
  four pumps with it.
* Every run leads to such links (`LinkEnd.mends_of_flow`).  What is retained comes from `LinkEnd.Flow`; that the links
  recognise each other's hellos is `LinkEnd.Signed`, which needs hellos that name their own link.
-/

namespace Tandem

open Link

/-! ## Frames without a gap -/

/-- The frames are the next ones of a session after a number, without a gap, and can be read. -/
def Frame.Follow (session : SessionId) : UInt64 → List Frame → Prop
  | _, [] => True
  | n, f :: rest =>
    (f.header.session = session ∧ f.seq = n + 1 ∧ f.seq ≠ unsequenced ∧ ∃ m, f.message = .ok m) ∧
      Frame.Follow session f.seq rest

/-- The last number of frames that follow a number. -/
def Frame.lastNumber : UInt64 → List Frame → UInt64
  | n, [] => n
  | _, f :: rest => Frame.lastNumber f.seq rest

namespace Frame

/-- Stamping frames anew does not matter. -/
theorem follow_map_restamped {session : SessionId} {n : UInt64} {frames : List Frame}
    (h : Follow session n frames) (ack : UInt64) (flags : Frame → FrameFlags) :
    Follow session n (frames.map (fun f => f.restamped ack (flags f))) := by
  induction frames generalizing n with
  | nil => exact h
  | cons f rest ih => exact ⟨h.1, ih h.2⟩

theorem lastNumber_map_restamped (n : UInt64) (frames : List Frame) (ack : UInt64) (flags : Frame → FrameFlags) :
    lastNumber n (frames.map (fun f => f.restamped ack (flags f))) = lastNumber n frames := by
  induction frames generalizing n with
  | nil => rfl
  | cons f rest ih => exact ih f.seq

theorem session_ofMessage {session : SessionId} {sender : ParticipantId} {seq : UInt64} {m : SyncMessage}
    {f : Frame} (written : Frame.ofMessage session sender seq m = .ok f) : f.header.session = session := by
  unfold Frame.ofMessage at written
  cases encoded : m.encode with
  | error fault => simp [encoded, Bind.bind, Except.bind] at written
  | ok payload =>
    simp only [encoded, Bind.bind, Except.bind] at written
    split at written
    · cases written
    · cases written
      rfl

end Frame

/-! ## What a link makes of the frames of a reconnect -/

namespace Link

variable {l : Link} {f : Frame} {now : SessionTime}

/-- Takes frames one after the other, the n-th of them at `now n`; yields what became of each. -/
def onFrames (l : Link) (now : Nat → SessionTime) : List Frame → Link × List (Except Fault Unit)
  | [] => (l, [])
  | f :: rest =>
    let (l, verdict) := l.onFrame f (now 0)
    let (l, verdicts) := l.onFrames (fun n => now (n + 1)) rest
    (l, verdict :: verdicts)

/-- The link when it has been told who is at the other end. -/
def named (l : Link) (p : ParticipantId) : Link := { l with remote := some p }

@[simp] theorem stream_named (l : Link) (p : ParticipantId) : (l.named p).stream = l.stream := rfl

/-- A hello of the peer that the link knows, or of the first one that it hears of. -/
theorem onLinkMessage_hello {p : ParticipantId} (known : ∀ q, l.remote = some q → q = p) (n : UInt64) :
    l.onLinkMessage (.hello p n) now =
      ((((l.named p).releaseAcked n).enter .established now).resend now, .ok ()) := by
  have recognised : l.remote.filter (· ≠ p) = none := by
    rw [Option.filter_eq_none_iff]
    intro q same
    simpa using known q same
  unfold onLinkMessage
  dsimp only
  rw [recognised]
  rfl

/-- A link that takes a hello of its peer is established and queues what the peer lacks. -/
theorem onFrame_hello {p : ParticipantId} {n : UInt64} (now : SessionTime) (session : f.header.session = l.session)
    (isOpen : l.state ≠ .closed) (connected : l.connected = true) (known : ∀ q, l.remote = some q → q = p)
    (outside : f.seq = unsequenced) (carried : f.message = .ok (.hello p n)) :
    ∃ l', l.onFrame f now = (l', .ok ()) ∧ l'.state = .established ∧ l'.bond = { l.bond with remote := some p } ∧
      l'.stream = (l.stream.release f.header.ack).release n ∧
      l'.outbox.toList = l.outbox.toList.filter (fun f => f.seq = unsequenced) ++
        l'.stream.retained.map (fun f => f.restamped 0 (FrameFlags.none.setResend true)) := by
  have met : ((((l.heard f.header.ack now).named p).releaseAcked n).enter .established now).bond =
      { l.bond with remote := some p } := by
    rw [bond_enter, bond_releaseAcked]
    rfl
  rw [onFrame_eq session isOpen carried, if_pos outside, onLinkMessage_hello (l := l.heard f.header.ack now) known n]
  refine ⟨_, rfl, ?_, ?_, ?_, ?_⟩
  · rw [state_resend, state_enter]
  · rw [bond_resend, met]
  · rw [stream_resend, stream_enter, stream_releaseAcked, stream_named, stream_heard]
  · rw [stream_resend, outbox_resend ((congrArg LinkBond.connected met).trans connected), outbox_enter]
    rfl

/-- An established link takes the next frame. -/
theorem onFrame_next {m : SyncMessage} (now : SessionTime) (session : f.header.session = l.session)
    (established : l.state = .established)
    (numbered : f.seq ≠ unsequenced) (carried : f.message = .ok m) (inPlace : f.seq = l.receivedThrough + 1) :
    ∃ l', l.onFrame f now = (l', .ok ()) ∧ l'.state = .established ∧ l'.bond = l.bond ∧ l'.outbox = l.outbox ∧
      l'.stream = { l.stream.release f.header.ack with inbox := l.stream.inbox ++ [m], through := f.seq } := by
  have isOpen : l.state ≠ .closed := by
    rw [established]
    decide
  have still : (l.heard f.header.ack now).noteNext f.seq now =
      { l.heard f.header.ack now with received := { l.received with highest := f.seq } } := by
    have here : (l.heard f.header.ack now).state = .established := established
    simp only [noteNext, revive, here]
    rfl
  have stream := stream_noteNext (l.heard f.header.ack now) f.seq now
  rw [onFrame_eq session isOpen carried, if_neg numbered,
    onSequenced_next (l := l.heard f.header.ack now) inPlace, still]
  rw [still, stream_heard] at stream
  refine ⟨_, rfl, established, rfl, rfl, ?_⟩
  simp only [Link.stream, LinkStream.mk.injEq] at stream
  obtain ⟨sess, localId, capacity, nextSeq, retained, -, through⟩ := stream
  simp only [Link.stream, LinkStream.mk.injEq]
  exact ⟨sess, localId, capacity, nextSeq, retained, Fifo.toList_push _ m, through⟩

/-- What becomes of an established link that takes frames without a gap. -/
structure TookAll (l : Link) (frames : List Frame) (after : Link × List (Except Fault Unit)) : Prop where
  accepted : ∀ verdict ∈ after.2, verdict = .ok ()
  established : after.1.state = .established
  session : after.1.session = l.session
  outbox : after.1.outbox = l.outbox
  through : after.1.receivedThrough = Frame.lastNumber l.receivedThrough frames
  lastSequence : after.1.lastSequence = l.lastSequence

/-- **Frames without a gap are taken** one after the other, and no verdict is a fault. -/
theorem tookAll_of_follow {frames : List Frame} (now : Nat → SessionTime) (established : l.state = .established)
    (follow : Frame.Follow l.session l.receivedThrough frames) : l.TookAll frames (l.onFrames now frames) := by
  induction frames generalizing l now with
  | nil => exact ⟨fun _ mem => absurd mem List.not_mem_nil, established, rfl, rfl, rfl, rfl⟩
  | cons f rest ih =>
    obtain ⟨⟨session, inPlace, numbered, m, carried⟩, more⟩ := follow
    obtain ⟨l', taken, established', -, outbox, stream⟩ :=
      onFrame_next (now 0) session established numbered carried inPlace
    have through : l'.receivedThrough = f.seq := congrArg LinkStream.through stream
    have session' : l'.session = l.session := congrArg LinkStream.session stream
    have nextSeq : l'.nextSeq = l.nextSeq := congrArg LinkStream.nextSeq stream
    have others := ih (l := l') (fun n => now (n + 1)) established' (by rwa [session', through])
    have split : l.onFrames now (f :: rest) = ((l'.onFrames (fun n => now (n + 1)) rest).1,
        .ok () :: (l'.onFrames (fun n => now (n + 1)) rest).2) := by
      rw [onFrames, taken]
    rw [split]
    refine ⟨?_, others.established, others.session.trans session', others.outbox.trans outbox, ?_, ?_⟩
    · intro verdict mem
      exact (List.mem_cons.mp mem).elim id (others.accepted verdict)
    · rw [others.through, through]
      rfl
    · rw [others.lastSequence, lastSequence, nextSeq]
      rfl

/-- The link when it has lost its connection and been given a new one. -/
def reopened (l : Link) (lost found : SessionTime) : Link := (l.onDisconnected lost).onConnected found

@[simp] theorem stream_reopened (l : Link) (lost found : SessionTime) : (l.reopened lost found).stream = l.stream := by
  rw [reopened, stream_onConnected, stream_onDisconnected]

theorem isOpen_onDisconnected (isOpen : l.state ≠ .closed) (now : SessionTime) :
    (l.onDisconnected now).state ≠ .closed := by
  unfold onDisconnected
  split
  · exact isOpen
  · dsimp only
    split
    · rw [state_enter]
      decide
    · exact isOpen

/-- A message outside the sequence is queued last. -/
theorem outbox_pushUnsequenced {m : SyncMessage} {g : Frame} (connected : l.connected = true)
    (written : Frame.ofMessage l.session l.localId unsequenced m = .ok g) :
    (l.pushUnsequenced m now).outbox.toList = l.outbox.toList ++ [g] := by
  unfold pushUnsequenced
  rw [written]
  dsimp only
  rw [if_pos connected, Fifo.toList_push]

/-- An open link that gets a connection queues nothing but its greeting. -/
theorem outbox_onConnected (isOpen : l.state ≠ .closed) (now : SessionTime) :
    ∃ g, Frame.ofMessage l.session l.localId unsequenced l.greeting = .ok g ∧
      (l.onConnected now).outbox.toList = [g] := by
  obtain ⟨g, written⟩ : ∃ g, Frame.ofMessage l.session l.localId unsequenced l.greeting = .ok g := ⟨_, rfl⟩
  refine ⟨g, written, ?_⟩
  unfold onConnected
  rw [if_neg isOpen]
  dsimp only
  split
  · exact outbox_pushUnsequenced rfl written
  · exact outbox_pushUnsequenced rfl written

end Link

/-! ## The four pumps -/

/-- What one link needs to make up for everything that the other one lacks. -/
structure Link.Mends (a b : Link) : Prop where
  isOpen : a.state ≠ .closed
  session : a.session = b.session
  /-- The other link does not expect anybody else. -/
  known : ∀ p, b.remote = some p → p = a.localId
  /-- What is still retained follows what the other link has. -/
  follow : Frame.Follow a.session b.receivedThrough (a.stream.release b.receivedThrough).retained
  complete : Frame.lastNumber b.receivedThrough (a.stream.release b.receivedThrough).retained = a.lastSequence

/-- What comes of two links that hand each other what they have queued. -/
structure Exchanged where
  left : Link
  right : Link
  /-- What became of the frames, in the order in which they were taken. -/
  verdicts : List (Except Fault Unit)

/-- Pumps in alternating directions, the first one from left to right: what one link has queued is taken by the
other one, in order and without loss.  The times are those at which the frames of each pump are taken. -/
def Link.exchange (left right : Link) : List (Nat → SessionTime) → Exchanged
  | [] => ⟨left, right, []⟩
  | now :: rest =>
    let (frames, left) := left.drainOutbound
    let (right, verdicts) := right.onFrames now frames
    let after := right.exchange left rest
    ⟨after.right, after.left, verdicts ++ after.verdicts⟩

/-- Nothing is missing on either side, and nothing went wrong. -/
structure Exchanged.Mended (x : Exchanged) : Prop where
  accepted : ∀ verdict ∈ x.verdicts, verdict = .ok ()
  establishedLeft : x.left.state = .established
  establishedRight : x.right.state = .established
  throughLeft : x.left.receivedThrough = x.right.lastSequence
  throughRight : x.right.receivedThrough = x.left.lastSequence

namespace Link

/-- A frame as a link puts it on the connection. -/
def stamped (l : Link) (f : Frame) : Frame :=
  f.restamped l.receivedThrough (f.header.flags.union (FrameFlags.none.setBackpressure l.isBackpressured))

/-- The frames that a link puts on the connection. -/
def outgoing (l : Link) : List Frame := l.outbox.toList.map l.stamped

/-- The link when it has put them there. -/
def drained (l : Link) : Link := { l with outbox := .empty }

theorem drainOutbound_eq (l : Link) : l.drainOutbound = (l.outgoing, l.drained) := rfl

/-- What a link sends again to one that has taken less. -/
def again (l other : Link) : List Frame :=
  (l.stream.release other.receivedThrough).retained.map (fun f => f.restamped 0 (FrameFlags.none.setResend true))

/-- What becomes of a link that takes the greeting of another one, and then frames. -/
structure Greeted (l other : Link) (frames : List Frame) (after : Link × List (Except Fault Unit)) : Prop where
  accepted : ∀ verdict ∈ after.2, verdict = .ok ()
  established : after.1.state = .established
  session : after.1.session = l.session
  outbox : after.1.outbox.toList = l.outbox.toList.filter (fun f => f.seq = unsequenced) ++ l.again other
  through : after.1.receivedThrough = Frame.lastNumber l.receivedThrough frames
  lastSequence : after.1.lastSequence = l.lastSequence

/-- An open link takes the greeting of a link that it knows or is about to know, and then frames without a gap. -/
theorem greeted_onFrames {l other s : Link} {g : Frame} {more : List Frame} {now : Nat → SessionTime}
    (isOpen : l.state ≠ .closed) (connected : l.connected = true) (session : other.session = l.session)
    (known : ∀ p, l.remote = some p → p = other.localId)
    (written : Frame.ofMessage other.session other.localId unsequenced other.greeting = .ok g)
    (outbox : s.outbox.toList = g :: more) (through : s.receivedThrough = other.receivedThrough)
    (follow : Frame.Follow l.session l.receivedThrough (more.map s.stamped)) :
    l.Greeted other (more.map s.stamped) (l.onFrames now s.outgoing) := by
  obtain ⟨-, outside, carried⟩ := Frame.message_ofMessage written
  obtain ⟨l', taken, established, -, stream, queued⟩ := onFrame_hello (f := s.stamped g) (now 0)
    ((Frame.session_ofMessage written).trans session) isOpen connected known outside carried
  have once : (l.stream.release (s.stamped g).header.ack).release other.receivedThrough =
      l.stream.release other.receivedThrough := by
    have ack : (s.stamped g).header.ack = other.receivedThrough := through
    rw [ack]
    simp only [LinkStream.release, LinkStream.mk.injEq, true_and, and_true]
    exact List.dropWhile_idempotent _ _
  have stream := stream.trans once
  have session' : l'.session = l.session := congrArg LinkStream.session stream
  have through' : l'.receivedThrough = l.receivedThrough := congrArg LinkStream.through stream
  have nextSeq : l'.nextSeq = l.nextSeq := congrArg LinkStream.nextSeq stream
  rw [← session', ← through'] at follow
  have others := tookAll_of_follow (fun n => now (n + 1)) established follow
  rw [outgoing, outbox, List.map_cons, onFrames, taken]
  refine ⟨?_, others.established, others.session.trans session', ?_, ?_, ?_⟩
  · intro verdict mem
    exact (List.mem_cons.mp mem).elim id (others.accepted verdict)
  · rw [others.outbox, queued, stream, again]
  · rw [others.through, through']
  · rw [others.lastSequence, lastSequence, nextSeq]
    rfl

/-- What a link that mends puts on the connection follows what the other one has. -/
theorem Mends.follow_again {l other : Link} (mends : l.Mends other) (late : Link) :
    Frame.Follow l.session other.receivedThrough ((l.again other).map late.stamped) ∧
      Frame.lastNumber other.receivedThrough ((l.again other).map late.stamped) = l.lastSequence := by
  refine ⟨Frame.follow_map_restamped (Frame.follow_map_restamped mends.follow 0 _) _ _, ?_⟩
  have stamped := Frame.lastNumber_map_restamped other.receivedThrough (l.again other) late.receivedThrough
    (fun f => f.header.flags.union (FrameFlags.none.setBackpressure late.isBackpressured))
  refine stamped.trans ?_
  rw [again, Frame.lastNumber_map_restamped, mends.complete]

/-- A link as it stands when it has a new connection and has queued its greeting. -/
structure Greets (l fresh : Link) : Prop where
  isOpen : fresh.state ≠ .closed
  stream : fresh.stream = l.stream
  bond : fresh.bond = { l.bond with connected := true }
  greeting : ∃ g, Frame.ofMessage l.session l.localId unsequenced l.greeting = .ok g ∧ fresh.outbox.toList = [g]

theorem greets_reopened {l : Link} (isOpen : l.state ≠ .closed) (lost found : SessionTime) :
    l.Greets (l.reopened lost found) := by
  have stream := stream_onDisconnected l lost
  have isOpen' := isOpen_onDisconnected isOpen lost
  obtain ⟨g, written, outbox⟩ := outbox_onConnected isOpen' found
  have localId : (l.onDisconnected lost).localId = l.localId := congrArg LinkStream.localId stream
  have session : (l.onDisconnected lost).session = l.session := congrArg LinkStream.session stream
  have through : (l.onDisconnected lost).receivedThrough = l.receivedThrough := congrArg LinkStream.through stream
  rw [greeting, session, localId, through] at written
  refine ⟨?_, stream_reopened l lost found, ?_, g, written, outbox⟩
  · rw [reopened, state_onConnected]
    exact isOpen'
  · rw [reopened, bond_onConnected isOpen', bond_onDisconnected]

/-- It has what the other link lacks as before. -/
theorem Mends.congr {a a' b : Link} (h : a.Mends b) (isOpen : a'.state ≠ .closed) (stream : a'.stream = a.stream) :
    a'.Mends b := by
  have session : a'.session = a.session := congrArg LinkStream.session stream
  have localId : a'.localId = a.localId := congrArg LinkStream.localId stream
  have nextSeq : a'.nextSeq = a.nextSeq := congrArg LinkStream.nextSeq stream
  refine ⟨isOpen, session.trans h.session, ?_, ?_, ?_⟩
  · intro p same
    exact (h.known p same).trans localId.symm
  · rw [session, stream]
    exact h.follow
  · rw [stream, lastSequence, nextSeq]
    exact h.complete

end Link

namespace Link

/-- **Four pumps are enough** for two links of which each has what the other one lacks. -/
theorem mended_exchange {a b : Link} (fromA : a.Mends b) (fromB : b.Mends a) (lostA foundA lostB foundB : SessionTime)
    (now₀ now₁ now₂ now₃ : Nat → SessionTime) :
    ((a.reopened lostA foundA).exchange (b.reopened lostB foundB) [now₀, now₁, now₂, now₃]).Mended := by
  have greetsA := greets_reopened fromA.isOpen lostA foundA
  have greetsB := greets_reopened fromB.isOpen lostB foundB
  generalize a.reopened lostA foundA = a₀ at greetsA
  generalize b.reopened lostB foundB = b₀ at greetsB
  obtain ⟨ga, writtenA, outboxA⟩ := greetsA.greeting
  obtain ⟨gb, writtenB, outboxB⟩ := greetsB.greeting
  have fromA₀ : a₀.Mends b := fromA.congr greetsA.isOpen greetsA.stream
  have fromB₀ : b₀.Mends a := fromB.congr greetsB.isOpen greetsB.stream
  have throughA : a₀.receivedThrough = a.receivedThrough := congrArg LinkStream.through greetsA.stream
  have throughB : b₀.receivedThrough = b.receivedThrough := congrArg LinkStream.through greetsB.stream
  -- The first pump brings one greeting, and the frames that are missing on that side are queued.
  have first : b₀.Greeted a [] (b₀.onFrames now₀ a₀.outgoing) :=
    greeted_onFrames greetsB.isOpen (congrArg LinkBond.connected greetsB.bond) fromB₀.session.symm (by
      intro p same
      exact fromA.known p ((congrArg LinkBond.remote greetsB.bond).symm.trans same)) writtenA outboxA throughA trivial
  have queuedB : (b₀.onFrames now₀ a₀.outgoing).1.outbox.toList = gb :: b₀.again a := by
    have outside : gb.seq = unsequenced := (Frame.message_ofMessage writtenB).2.1
    rw [first.outbox, outboxB, List.filter_singleton, decide_eq_true outside]
    rfl
  generalize took₁ : b₀.onFrames now₀ a₀.outgoing = after₁ at first queuedB
  -- The second one brings the other greeting, and those frames behind it.
  have missingA := fromB₀.follow_again after₁.1
  have second : a₀.drained.Greeted b ((b₀.again a).map after₁.1.stamped)
      (a₀.drained.onFrames now₁ after₁.1.outgoing) :=
    greeted_onFrames (l := a₀.drained) greetsA.isOpen (congrArg LinkBond.connected greetsA.bond) fromA₀.session.symm (by
      intro p same
      exact fromB.known p ((congrArg LinkBond.remote greetsA.bond).symm.trans same)) writtenB queuedB
      (first.through.trans throughB) (by
      have here : a₀.drained.receivedThrough = a.receivedThrough := throughA
      have session : a₀.drained.session = b₀.session := fromA₀.session.trans (fromB₀.session.trans fromA.session).symm
      rw [here, session]
      exact missingA.1)
  generalize took₂ : a₀.drained.onFrames now₁ after₁.1.outgoing = after₂ at second
  -- The third one brings the frames that the first side has been asked for.
  have missingB := fromA₀.follow_again after₂.1
  have queuedA : after₂.1.outgoing = (a₀.again b).map after₂.1.stamped := congrArg (List.map _) second.outbox
  have third : after₁.1.drained.TookAll ((a₀.again b).map after₂.1.stamped)
      (after₁.1.drained.onFrames now₂ after₂.1.outgoing) := by
    rw [queuedA]
    refine tookAll_of_follow now₂ first.established ?_
    have here : after₁.1.drained.receivedThrough = b.receivedThrough := first.through.trans throughB
    have session : after₁.1.drained.session = a₀.session :=
      first.session.trans (fromB₀.session.trans (fromA.session.trans fromA₀.session.symm))
    rw [here, session]
    exact missingB.1
  generalize took₃ : after₁.1.drained.onFrames now₂ after₂.1.outgoing = after₃ at third
  -- The fourth one has nothing to bring.
  have took₄ : after₂.1.drained.onFrames now₃ after₃.1.outgoing = (after₂.1.drained, []) := by
    have nothing : after₃.1.outgoing = [] := by
      rw [outgoing, third.outbox]
      rfl
    rw [nothing]
    rfl
  have whole : a₀.exchange b₀ [now₀, now₁, now₂, now₃] =
      ⟨after₂.1.drained, after₃.1.drained, after₁.2 ++ (after₂.2 ++ (after₃.2 ++ ([] ++ [])))⟩ := by
    simp only [exchange, drainOutbound_eq, took₁, took₂, took₃, took₄]
  rw [whole]
  refine ⟨?_, second.established, third.established, ?_, ?_⟩
  · intro verdict mem
    simp only [List.append_nil, List.mem_append] at mem
    rcases mem with mem | mem | mem
    · exact first.accepted verdict mem
    · exact second.accepted verdict mem
    · exact third.accepted verdict mem
  · calc after₂.1.receivedThrough
        = b₀.lastSequence := second.through.trans ((congrArg (Frame.lastNumber · _) throughA).trans missingA.2)
      _ = after₁.1.lastSequence := first.lastSequence.symm
      _ = after₃.1.lastSequence := third.lastSequence.symm
  · calc after₃.1.receivedThrough
        = a₀.lastSequence :=
          third.through.trans ((congrArg (Frame.lastNumber · _) (first.through.trans throughB)).trans missingB.2)
      _ = after₂.1.lastSequence := second.lastSequence.symm

end Link

/-! ## Who is at the other end -/

/-- The frame is of the session and can be read, and a hello in it names a participant of whom `who` holds. -/
structure Frame.SignedBy (session : SessionId) (who : ParticipantId → Prop) (f : Frame) : Prop where
  session : f.header.session = session
  readable : ∃ m, f.message = .ok m
  hello : ∀ participant resumeFrom, f.message = .ok (.hello participant resumeFrom) → who participant

theorem Frame.signedBy_ofMessage {session : SessionId} {sender : ParticipantId} {who : ParticipantId → Prop}
    {seq : UInt64} {m : SyncMessage} {f : Frame} (written : Frame.ofMessage session sender seq m = .ok f)
    (named : ∀ participant resumeFrom, m = .hello participant resumeFrom → who participant) :
    f.SignedBy session who := by
  have carried := (Frame.message_ofMessage written).2.2
  refine ⟨Frame.session_ofMessage written, ⟨_, carried⟩, fun participant resumeFrom same => ?_⟩
  rw [carried, Except.ok.injEq] at same
  cases m with
  | hello => exact named _ _ same
  | _ => simp [SyncMessage.arrived] at same

namespace LinkStream

variable {s s' : LinkStream} {f : Frame}

theorem Takes.identity (h : s.Takes f s') : s'.session = s.session ∧ s'.localId = s.localId := by
  cases h <;> exact ⟨rfl, rfl⟩

/-- Taking a frame retains nothing new. -/
theorem Takes.retained (h : s.Takes f s') : s'.retained ⊆ s.retained := by
  cases h with
  | ignored => exact List.Subset.refl _
  | acknowledged | next => exact List.dropWhile_subset _
  | resumed => exact List.Subset.trans (List.dropWhile_subset _) (List.dropWhile_subset _)

/-- The frames that a link queues by itself are signed by its own participant. -/
theorem signedBy_of_queueable {who : ParticipantId → Prop} (own : who s.localId)
    (retained : ∀ g ∈ s.retained, g.SignedBy s.session who) (queueable : s.Queueable f) :
    f.SignedBy s.session who := by
  cases queueable with
  | greeting written =>
    refine Frame.signedBy_ofMessage written (fun _ _ same => ?_)
    cases same
    exact own
  | heartbeat time written => exact Frame.signedBy_ofMessage written (fun _ _ same => by cases same)
  | again flags kept => exact ⟨(retained _ kept).session, (retained _ kept).readable, (retained _ kept).hello⟩

end LinkStream

namespace LinkEnd

/-- An end of a session whose frames name participants of whom `own` holds, its own one among them, and that knows
none but those of whom `peer` holds. -/
structure Signed (session : SessionId) (own peer : ParticipantId → Prop) (e : LinkEnd) : Prop where
  joined : e.link.stream.session = session
  named : own e.link.stream.localId
  known : ∀ p, e.link.bond.remote = some p → peer p
  retained : ∀ f ∈ e.link.stream.retained, f.SignedBy session own
  queued : ∀ f ∈ e.link.outbox.toList, f.SignedBy session own
  drained : ∀ f ∈ e.drained, f.SignedBy session own

/-- Only a hello that arrives tells an end who is at the other one. -/
theorem remote_perform (e : LinkEnd) (arriving : List Frame) (now : SessionTime) (action : LinkAction) :
    (e.perform arriving now action).link.bond.remote = e.link.bond.remote ∨
      ∃ f ∈ arriving, ∃ participant resumeFrom, f.message = .ok (.hello participant resumeFrom) ∧
        (e.perform arriving now action).link.bond.remote = some participant := by
  cases action with
  | send m =>
    left
    dsimp only [perform]
    rcases e.link.send_cases m now with ⟨fault, sent⟩ | ⟨-, sent⟩ | ⟨-, -, f, -, sent⟩
    · rw [sent]
    · rw [sent]
      exact congrArg LinkBond.remote (bond_pushUnsequenced e.link m now)
    · rw [sent]
      rfl
  | tick => exact Or.inl (congrArg LinkBond.remote (bond_tick e.link now))
  | connected =>
    left
    by_cases closed : e.link.state = .closed
    · have still : e.link.onConnected now = e.link := if_pos closed
      rw [perform, still]
    · dsimp only [perform]
      rw [bond_onConnected closed now]
  | disconnected =>
    left
    dsimp only [perform]
    rw [bond_onDisconnected e.link now]
  | requeue => exact Or.inl (congrArg LinkBond.remote (bond_requeue e.link now))
  | close => exact Or.inl (congrArg LinkBond.remote (bond_close e.link now))
  | drainOutbound => exact Or.inl rfl
  | drainInbound => exact Or.inl rfl
  | deliver place =>
    dsimp only [perform]
    cases found : arriving[place]? with
    | none => exact Or.inl rfl
    | some f =>
      rcases remote_onFrame e.link f now with same | ⟨participant, resumeFrom, carried, told⟩
      · exact Or.inl same
      · exact Or.inr ⟨f, List.mem_of_getElem? found, participant, resumeFrom, carried, told⟩

namespace Signed

variable {session : SessionId} {own peer : ParticipantId → Prop} {e e' : LinkEnd}

/-- An end that retains nothing new but signed frames stays signed. -/
theorem relink (h : e.Signed session own peer)
    (identity : e'.link.stream.session = e.link.stream.session ∧ e'.link.stream.localId = e.link.stream.localId)
    (known : ∀ p, e'.link.bond.remote = some p → peer p)
    (retained : ∀ f ∈ e'.link.stream.retained, f ∈ e.link.stream.retained ∨ f.SignedBy session own)
    (outbox : ∀ f ∈ e'.link.outbox.toList, f ∈ e.link.outbox.toList ∨ e'.link.stream.Queueable f ∨
      f.SignedBy session own)
    (drained : ∀ f ∈ e'.drained, f.SignedBy session own) : e'.Signed session own peer := by
  have joined := identity.1.trans h.joined
  have named : own e'.link.stream.localId := identity.2 ▸ h.named
  have kept : ∀ f ∈ e'.link.stream.retained, f.SignedBy session own := fun f mem =>
    (retained f mem).elim (h.retained f) id
  refine ⟨joined, named, known, kept, fun f mem => ?_, drained⟩
  rcases outbox f mem with old | queueable | signed
  · exact h.queued f old
  · rw [← joined] at kept ⊢
    exact LinkStream.signedBy_of_queueable named kept queueable
  · exact signed

/-- **One end stays signed** along every move that sends no hello in another name. -/
theorem move {arriving : List Frame} {action : LinkAction} (h : e.Signed session own peer)
    (named : ∀ participant resumeFrom, action = .send (.hello participant resumeFrom) → own participant)
    (known : ∀ p, e'.link.bond.remote = some p → peer p) (moves : e.Moves arriving action e') :
    e'.Signed session own peer := by
  have joined : e.link.session = session := h.joined
  cases moves with
  | quiet stream outbox =>
    refine h.relink ⟨by rw [stream], by rw [stream]⟩ known (fun f mem => Or.inl (stream ▸ mem)) (fun f mem => ?_)
      h.drained
    rw [stream]
    exact (outbox f mem).imp_right Or.inl
  | outside m now asked isLocal =>
    have stream := stream_pushUnsequenced e.link m now
    refine h.relink ⟨by rw [stream], by rw [stream]⟩ known (fun f mem => Or.inl (stream ▸ mem)) (fun f mem => ?_)
      h.drained
    refine (mem_outbox_pushUnsequenced mem).imp_right (fun written => Or.inr ?_)
    rw [← joined]
    exact Frame.signedBy_ofMessage written (fun participant resumeFrom same => named _ _ (same ▸ asked))
  | numbered m f now isLocal room written =>
    have signed : f.SignedBy session own := by
      rw [← joined]
      refine Frame.signedBy_ofMessage written (fun participant resumeFrom same => ?_)
      rw [same] at isLocal
      exact absurd isLocal (by simp [SyncMessage.isLinkLocal])
    have stream := stream_enqueue e.link f now
    refine h.relink ⟨by rw [stream], by rw [stream]⟩ known (fun g mem => ?_) (fun g mem => ?_) h.drained
    · rw [stream, List.mem_append, List.mem_singleton] at mem
      rcases mem with old | rfl
      · exact Or.inl old
      · exact Or.inr signed
    · rcases mem_outbox_enqueue mem with old | rfl
      · exact Or.inl old
      · exact Or.inr (Or.inr signed)
  | drained =>
    refine h.relink ⟨rfl, rfl⟩ known (fun _ => Or.inl) (fun f mem => absurd mem List.not_mem_nil) (fun f mem => ?_)
    rcases List.mem_append.mp mem with old | new
    · exact h.drained f old
    · obtain ⟨g, queued, rfl⟩ := List.mem_map.mp new
      exact ⟨(h.queued g queued).session, (h.queued g queued).readable, (h.queued g queued).hello⟩
  | fetched => exact h.relink ⟨rfl, rfl⟩ known (fun _ => Or.inl) (fun _ => Or.inl) h.drained
  | took f now arrives =>
    have takes := takes_onFrame e.link f now
    exact h.relink takes.identity known (fun g mem => Or.inl (takes.retained mem))
      (fun g mem => (mem_outbox_onFrame mem).imp_right Or.inl) h.drained

end Signed

end LinkEnd

/-! ## What is retained follows what has arrived -/

/-- The frames have the numbers after `s`, one after the other, and can be read. -/
def Frame.Consecutive (session : SessionId) (s : Nat) (frames : List Frame) : Prop :=
  ∀ i f, frames[i]? = some f →
    f.header.session = session ∧ f.seq = UInt64.ofNat (s + i + 1) ∧ ∃ m, f.message = .ok m

namespace Frame

variable {session : SessionId} {f : Frame} {frames rest : List Frame} {s t : Nat}

theorem Consecutive.tail (h : Consecutive session s (f :: rest)) : Consecutive session (s + 1) rest := by
  intro i g there
  have place : s + 1 + i = s + (i + 1) := by omega
  rw [place]
  exact h (i + 1) g there

theorem Consecutive.follow (h : Consecutive session s frames) (fewer : s + frames.length < UInt64.size) :
    Follow session (UInt64.ofNat s) frames ∧
      lastNumber (UInt64.ofNat s) frames = UInt64.ofNat (s + frames.length) := by
  induction frames generalizing s with
  | nil => exact ⟨trivial, rfl⟩
  | cons f rest ih =>
    obtain ⟨here, seq, carried⟩ := h 0 f rfl
    have seq : f.seq = UInt64.ofNat (s + 1) := seq
    have length : s + (f :: rest).length = s + 1 + rest.length := by
      rw [List.length_cons]
      omega
    rw [length] at fewer ⊢
    have later := ih h.tail fewer
    rw [← seq] at later
    refine ⟨⟨⟨here, seq.trans (UInt64.ofNat_add s 1), ?_, carried⟩, later.1⟩, later.2⟩
    intro outside
    have number := congrArg UInt64.toNat (seq.symm.trans outside)
    rw [UInt64.toNat_ofNat_of_lt' (by omega)] at number
    exact absurd number (Nat.succ_ne_zero s)

/-- When the frames up to `t` are let go, the ones after `t` are left. -/
theorem Consecutive.dropWhile (h : Consecutive session s frames) (le : s ≤ t) (upTo : t ≤ s + frames.length)
    (fewer : s + frames.length < UInt64.size) :
    Consecutive session t (frames.dropWhile (fun f => f.seq ≤ UInt64.ofNat t)) ∧
      t + (frames.dropWhile (fun f => f.seq ≤ UInt64.ofNat t)).length = s + frames.length := by
  induction frames generalizing s with
  | nil =>
    have same : t = s := Nat.le_antisymm upTo le
    subst same
    exact ⟨h, rfl⟩
  | cons f rest ih =>
    have seq : f.seq = UInt64.ofNat (s + 1) := (h 0 f rfl).2.1
    have length : s + (f :: rest).length = s + 1 + rest.length := by
      rw [List.length_cons]
      omega
    have order : f.seq ≤ UInt64.ofNat t ↔ s + 1 ≤ t := by
      rw [UInt64.le_iff_toNat_le, seq, UInt64.toNat_ofNat_of_lt' (by omega), UInt64.toNat_ofNat_of_lt' (by omega)]
    by_cases arrived : s + 1 ≤ t
    · rw [List.dropWhile_cons_of_pos (by simpa using order.mpr arrived), length]
      exact ih h.tail arrived (length ▸ upTo) (length ▸ fewer)
    · have same : t = s := by omega
      rw [List.dropWhile_cons_of_neg (by simpa using fun early => arrived (order.mp early))]
      subst same
      exact ⟨h, rfl⟩

end Frame

namespace LinkEnd

variable {a b : LinkEnd} {session : SessionId}

/-- What an end retains are its last numbered messages, and they can be read. -/
theorem Coherent.consecutive_retained {own peer : ParticipantId → Prop} (h : a.Coherent)
    (signed : a.Signed session own peer) :
    Frame.Consecutive session a.released a.link.stream.retained := by
  intro i f here
  obtain ⟨p, there, seq, carried⟩ := h.kept i f here
  exact ⟨(signed.retained f (List.mem_of_getElem? here)).session, seq.trans (h.consecutive _ p there), _, carried⟩

/-- An end has everything that the other one lacks. -/
theorem mends_of_flow {own peer : ParticipantId} (h : a.Coherent) (flow : Flow a b)
    (signed : a.Signed session (· = own) (· = peer)) (signed' : b.Signed session (· = peer) (· = own))
    (fewer : a.numbered.length < UInt64.size)
    (isOpen : a.link.state ≠ .closed) : a.link.Mends b.link := by
  have fits := h.fits
  have enough := flow.enough
  have whole : a.released + a.link.stream.retained.length = a.numbered.length := Nat.sub_add_cancel fits
  have arrived : a.released ≤ b.link.stream.through.toNat := by
    rcases flow.released with released | last
    · exact released
    · omega
  have through : b.link.receivedThrough = UInt64.ofNat b.link.stream.through.toNat := UInt64.ofNat_toNat.symm
  obtain ⟨rest, length⟩ := (h.consecutive_retained signed).dropWhile arrived (by omega) (by omega)
  obtain ⟨follow, last⟩ := rest.follow (by omega)
  rw [UInt64.ofNat_toNat] at follow last
  refine ⟨isOpen, signed.joined.trans signed'.joined.symm, ?_, ?_, ?_⟩
  · intro p same
    exact (signed'.known p same).trans signed.named.symm
  · have joined : a.link.session = session := signed.joined
    rw [joined]
    exact follow
  · refine last.trans ?_
    have next : a.link.nextSeq = UInt64.ofNat (a.numbered.length + 1) := h.next
    rw [UInt64.ofNat_toNat] at length
    rw [length, whole, lastSequence, next, UInt64.ofNat_add]
    exact (UInt64.add_sub_cancel _ 1).symm

end LinkEnd

/-! ## Whole runs -/

namespace LinkMove

/-- A hello that is sent names its own end, and does not claim more than that end has received. -/
@[mk_iff]
structure Candid (x : Ends LinkEnd) (move : LinkMove) : Prop where
  honest : move.Honest x
  named : ∀ participant resumeFrom, move.action = .send (.hello participant resumeFrom) →
    participant = (x.get move.side).link.localId

/-- Every hello that is sent in a run is candid. -/
def CandidRun (x : Ends LinkEnd) : List LinkMove → Prop
  | [] => True
  | move :: rest => move.Candid x ∧ CandidRun (act x move) rest

theorem CandidRun.honestRun {x : Ends LinkEnd} {moves : List LinkMove} (h : CandidRun x moves) :
    HonestRun x moves := by
  induction moves generalizing x with
  | nil => trivial
  | cons move rest ih => exact ⟨h.1.honest, ih h.2⟩

/-- Both ends are signed. -/
def AllSigned (session : SessionId) (localId : Ends ParticipantId) (x : Ends LinkEnd) : Prop :=
  ∀ side, (x.get side).Signed session (· = localId.get side) (· = localId.get side.other)

/-- **One step.** -/
theorem allSigned_act {session : SessionId} {localId : Ends ParticipantId} {x : Ends LinkEnd} {move : LinkMove}
    (h : AllSigned session localId x) (candid : move.Candid x) : AllSigned session localId (act x move) := by
  have there := h move.side.other
  have moves := (x.get move.side).moves_perform (x.get move.side.other).drained move.now move.action
  have remote := (x.get move.side).remote_perform (x.get move.side.other).drained move.now move.action
  refine Role.forall_of move.side ?_ ?_
  · rw [get_act_side]
    refine (h move.side).move ?_ ?_ moves
    · intro participant resumeFrom same
      exact (candid.named participant resumeFrom same).trans (h move.side).named
    · -- The hello that told has come from the other end.
      intro p same
      rcases remote with old | ⟨f, mem, participant, resumeFrom, carried, told⟩
      · exact (h move.side).known p (old.symm.trans same)
      · have who := (there.drained f mem).hello participant resumeFrom carried
        rw [told, Option.some.injEq] at same
        exact same.symm.trans who
  · rw [get_act_other]
    exact there

/-- **A whole run.** -/
theorem allSigned_run {session : SessionId} {localId : Ends ParticipantId} {x : Ends LinkEnd} {moves : List LinkMove}
    (h : AllSigned session localId x) (candid : CandidRun x moves) : AllSigned session localId (run x moves) := by
  induction moves generalizing x with
  | nil => exact h
  | cons move rest ih => exact ih (allSigned_act h candid.1) candid.2

end LinkMove

/-- A new link has told and heard nothing. -/
theorem LinkEnd.signed_fresh (session : SessionId) (config : LinkConfig) {localId : ParticipantId}
    {own peer : ParticipantId → Prop} (named : own localId) :
    (LinkEnd.fresh config session localId).Signed session own peer := by
  refine ⟨rfl, named, ?_, ?_, ?_, ?_⟩
  · intro p same
    cases same
  · exact fun f mem => absurd mem List.not_mem_nil
  · exact fun f mem => absurd mem List.not_mem_nil
  · exact fun f mem => absurd mem List.not_mem_nil

theorem Exchange.allSigned_fresh (session : SessionId) (config : Ends LinkConfig) (localId : Ends ParticipantId) :
    LinkMove.AllSigned session localId (Exchange.fresh session config localId) := by
  intro side
  cases side <;> exact LinkEnd.signed_fresh session _ rfl

/-- The four pumps after both ends of an exchange have lost their connection and been given a new one. -/
def Exchange.reconnect (x : Ends LinkEnd) (first : Role) (lost found : Ends SessionTime)
    (times : List (Nat → SessionTime)) : Exchanged :=
  ((x.get first).link.reopened (lost.get first) (found.get first)).exchange
    ((x.get first.other).link.reopened (lost.get first.other) (found.get first.other)) times

/-- **After a reconnect everything has arrived.**  Whatever has happened before, as long as neither link is closed:
four pumps over a new connection establish both links and bring each one what it lacks, and no frame is refused. -/
theorem Exchange.mended_run {session : SessionId} {config : Ends LinkConfig} {localId : Ends ParticipantId}
    {moves : List LinkMove} (room : ∀ side, (config.get side).outboundCapacity < UInt64.size)
    (candid : LinkMove.CandidRun (Exchange.fresh session config localId) moves)
    (fewer : ∀ side, ((LinkMove.run (Exchange.fresh session config localId) moves).get side).numbered.length <
      UInt64.size)
    (isOpen : ∀ side, ((LinkMove.run (Exchange.fresh session config localId) moves).get side).link.state ≠ .closed)
    (first : Role) (lost found : Ends SessionTime) (now₀ now₁ now₂ now₃ : Nat → SessionTime) :
    (Exchange.reconnect (LinkMove.run (Exchange.fresh session config localId) moves) first lost found
      [now₀, now₁, now₂, now₃]).Mended := by
  have sound := LinkMove.sound_run (Exchange.sound_fresh room) candid.honestRun
  have signed := LinkMove.allSigned_run (Exchange.allSigned_fresh session config localId) candid
  generalize LinkMove.run (Exchange.fresh session config localId) moves = x at fewer isOpen sound signed
  have mends : ∀ side, (x.get side).link.Mends (x.get side.other).link := by
    intro side
    have there := signed side.other
    rw [Role.other_other] at there
    exact LinkEnd.mends_of_flow (sound.coherent side) (sound.flow side) (signed side) there (fewer side) (isOpen side)
  have back := mends first.other
  rw [Role.other_other] at back
  exact mended_exchange (mends first) back _ _ _ _ now₀ now₁ now₂ now₃

/-- The host has sent a message that was lost, and another one without a connection. -/
def brokenSession : List LinkMove := lossySession.take 11

theorem Exchange.mended_run_brokenSession :
    ((LinkMove.run newSession brokenSession).get .guest).delivered = [] ∧
      (Exchange.reconnect (LinkMove.run newSession brokenSession) .guest ⟨⟨4⟩, ⟨4⟩⟩ ⟨⟨5⟩, ⟨5⟩⟩
        [fun _ => ⟨6⟩, fun _ => ⟨7⟩, fun _ => ⟨8⟩, fun _ => ⟨9⟩]).Mended := by
  refine ⟨by decide, Exchange.mended_run ?_ ?_ ?_ ?_ .guest _ _ _ _ _ _⟩
  · intro side
    cases side <;> decide
  · simp [brokenSession, lossySession, LinkMove.CandidRun, LinkMove.candid_iff, LinkMove.Honest]
  · intro side
    cases side <;> decide
  · intro side
    cases side <;> decide

/-- A hello in the name of a participant who is not there. -/
def strangeSession : List LinkMove :=
  [⟨.host, ⟨0⟩, .connected⟩, ⟨.host, ⟨0⟩, .send (.hello ⟨9⟩ 0)⟩, ⟨.host, ⟨0⟩, .drainOutbound⟩,
    ⟨.guest, ⟨0⟩, .deliver 1⟩]

/-- Without candid hellos four pumps may not be enough, although no link is closed: after a hello in another name
the guest refuses the one of the host, and a hello that claims too much costs a message. -/
theorem Exchange.not_mended_strangeSession :
    ((∀ side, ((LinkMove.run newSession strangeSession).get side).link.state ≠ .closed) ∧
      ¬ (Exchange.reconnect (LinkMove.run newSession strangeSession) .host ⟨⟨1⟩, ⟨1⟩⟩ ⟨⟨2⟩, ⟨2⟩⟩
        [fun _ => ⟨3⟩, fun _ => ⟨4⟩, fun _ => ⟨5⟩, fun _ => ⟨6⟩]).Mended) ∧
    (∀ side, ((LinkMove.run newSession boastfulSession).get side).link.state ≠ .closed) ∧
      ¬ (Exchange.reconnect (LinkMove.run newSession boastfulSession) .host ⟨⟨1⟩, ⟨1⟩⟩ ⟨⟨2⟩, ⟨2⟩⟩
        [fun _ => ⟨3⟩, fun _ => ⟨4⟩, fun _ => ⟨5⟩, fun _ => ⟨6⟩]).Mended := by
  refine ⟨⟨?_, ?_⟩, ?_, ?_⟩
  · intro side
    cases side <;> decide
  · intro mended
    have accepted := mended.accepted
    revert accepted
    decide
  · intro side
    cases side <;> decide
  · intro mended
    have through := mended.throughRight
    revert through
    decide

end Tandem
