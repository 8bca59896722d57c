import Tandem.Proofs.Link.Stream
import Tandem.Simulation.Ends
/-!
# Two links and a network between them

An *exchange* is a session seen from outside: two links, everything that has happened to them, and a network
that keeps every frame an end has ever drained.  A frame may be lost, by never being delivered, or delivered any
number of times, in any order and as late as one likes: `LinkAction.deliver` picks any of the drained
frames.  A run is a list of moves; each happens at one end and at its own session time, and times need not be
in order.

The links see one another only through frames, so a move changes one end and reads the drained frames of the
other (`LinkEnd.perform`).  What is recorded beside the links, which messages `send` has accepted and which ones
have been fetched, is what the statements are about; no link reads it.

A hello is a message like others for `send`, and the number in it is believed at the other end.
`LinkMove.Honest` says of a move that it sends no hello that claims more than has been received.
-/

namespace Tandem

/-- What may happen at one end of a session. -/
inductive LinkAction where
  | send (m : SyncMessage)
  | tick
  | connected
  | disconnected
  | requeue
  | close
  | drainOutbound
  | drainInbound
  /-- The network delivers one of the frames that the other end has drained. -/
  | deliver (place : Nat)

/-- A link with the record of what has gone through it. -/
structure LinkEnd where
  link : Link
  /-- What `send` has accepted, with the number that it answered. -/
  sent : List (UInt64 × SyncMessage)
  /-- Every frame that has been drained. -/
  drained : List Frame
  /-- Every message that has been fetched. -/
  fetched : List SyncMessage

namespace LinkEnd

/-- A new link, through which nothing has gone. -/
def fresh (config : LinkConfig) (session : SessionId) (localId : ParticipantId) : LinkEnd :=
  ⟨.new config session localId, [], [], []⟩

/-- The messages for which `send` has answered with a number other than zero. -/
def accepted (e : LinkEnd) : List (UInt64 × SyncMessage) := e.sent.filter (fun p => p.1 ≠ unsequenced)

/-- The messages that have come into the inbox, fetched or not. -/
def delivered (e : LinkEnd) : List SyncMessage := e.fetched ++ e.link.inbox.toList

/-- Something happens at an end, while the other one has drained the frames `arriving`. -/
def perform (e : LinkEnd) (arriving : List Frame) (now : SessionTime) : LinkAction → LinkEnd
  | .send m =>
    match e.link.send m now with
    | (link, .ok n) => { e with link := link, sent := e.sent ++ [(n, m)] }
    | (link, .error _) => { e with link := link }
  | .tick => { e with link := (e.link.tick now).1 }
  | .connected => { e with link := e.link.onConnected now }
  | .disconnected => { e with link := e.link.onDisconnected now }
  | .requeue => { e with link := e.link.requeue now }
  | .close => { e with link := e.link.close now }
  | .drainOutbound =>
    { e with link := e.link.drainOutbound.2, drained := e.drained ++ e.link.drainOutbound.1 }
  | .drainInbound =>
    { e with link := e.link.drainInbound.2, fetched := e.fetched ++ e.link.drainInbound.1 }
  | .deliver place =>
    match arriving[place]? with
    | some f => { e with link := (e.link.onFrame f now).1 }
    | none => e

/-- What a move can do to its end: one case for each way in which it may touch the stream of the link. -/
inductive Moves (e : LinkEnd) (arriving : List Frame) (action : LinkAction) : LinkEnd → Prop where
  /-- The stream stays as it is. -/
  | quiet {link : Link} (stream : link.stream = e.link.stream)
      (outbox : ∀ f ∈ link.outbox.toList, f ∈ e.link.outbox.toList ∨ e.link.stream.Queueable f) :
      Moves e arriving action { e with link := link }
  /-- A message is accepted outside the sequence. -/
  | outside (m : SyncMessage) (now : SessionTime) (asked : action = .send m) (isLocal : m.isLinkLocal = true) :
      Moves e arriving action
        { e with link := e.link.pushUnsequenced m now, sent := e.sent ++ [(unsequenced, m)] }
  /-- A message is accepted with the next number. -/
  | numbered (m : SyncMessage) (f : Frame) (now : SessionTime) (isLocal : m.isLinkLocal = false)
      (room : e.link.stream.retained.length < e.link.stream.capacity)
      (written : Frame.ofMessage e.link.session e.link.localId e.link.nextSeq m = .ok f) :
      Moves e arriving action
        { e with link := e.link.enqueue f now, sent := e.sent ++ [(e.link.nextSeq, m)] }
  | drained : Moves e arriving action
      { e with link := e.link.drainOutbound.2, drained := e.drained ++ e.link.drainOutbound.1 }
  | fetched : Moves e arriving action
      { e with link := e.link.drainInbound.2, fetched := e.fetched ++ e.link.drainInbound.1 }
  /-- A frame is taken from the network. -/
  | took (f : Frame) (now : SessionTime) (arrives : f ∈ arriving) :
      Moves e arriving action { e with link := (e.link.onFrame f now).1 }

theorem moves_perform (e : LinkEnd) (arriving : List Frame) (now : SessionTime) (action : LinkAction) :
    e.Moves arriving action (e.perform arriving now action) := by
  cases action with
  | send m =>
    dsimp only [perform]
    rcases e.link.send_cases m now with ⟨fault, sent⟩ | ⟨isLocal, sent⟩ | ⟨isLocal, room, f, written, sent⟩
    · rw [sent]
      exact .quiet rfl (fun _ => Or.inl)
    · rw [sent]
      exact .outside m now rfl isLocal
    · rw [sent]
      exact .numbered m f now isLocal room written
  | tick => exact .quiet (Link.stream_tick _ _) (fun _ => Link.mem_outbox_tick)
  | connected => exact .quiet (Link.stream_onConnected _ _) (fun _ => Link.mem_outbox_onConnected)
  | disconnected =>
    exact .quiet (Link.stream_onDisconnected _ _) (fun _ mem => Or.inl (Link.mem_outbox_onDisconnected mem))
  | requeue => exact .quiet (Link.stream_requeue _ _) (fun _ => Link.mem_outbox_requeue)
  | close => exact .quiet (Link.stream_close _ _) (fun _ mem => absurd mem List.not_mem_nil)
  | drainOutbound => exact .drained
  | drainInbound => exact .fetched
  | deliver place =>
    dsimp only [perform]
    cases found : arriving[place]? with
    | some f => exact .took f now (List.mem_of_getElem? found)
    | none => exact .quiet rfl (fun _ => Or.inl)

/-- No move changes how much may be retained. -/
theorem Moves.capacity {e e' : LinkEnd} {arriving : List Frame} {action : LinkAction}
    (h : e.Moves arriving action e') : e'.link.stream.capacity = e.link.stream.capacity := by
  cases h with
  | quiet stream => exact congrArg LinkStream.capacity stream
  | outside m now => exact congrArg LinkStream.capacity (Link.stream_pushUnsequenced e.link m now)
  | numbered | drained | fetched => rfl
  | took f now => exact (Link.takes_onFrame e.link f now).capacity

end LinkEnd

/-- Something that happens at one end, at a session time. -/
structure LinkMove where
  side : Role
  now : SessionTime
  action : LinkAction

namespace LinkMove

/-- The exchange after a move. -/
def act (x : Ends LinkEnd) (move : LinkMove) : Ends LinkEnd :=
  x.set move.side ((x.get move.side).perform (x.get move.side.other).drained move.now move.action)

/-- The exchange after a run. -/
def run (x : Ends LinkEnd) (moves : List LinkMove) : Ends LinkEnd := moves.foldl act x

/-- A hello that is sent does not claim more than the end has received. -/
def Honest (x : Ends LinkEnd) (move : LinkMove) : Prop :=
  ∀ participant resumeFrom, move.action = .send (.hello participant resumeFrom) →
    resumeFrom ≤ (x.get move.side).link.receivedThrough

/-- No hello that is sent in a run claims more than its end has received by then. -/
def HonestRun (x : Ends LinkEnd) : List LinkMove → Prop
  | [] => True
  | move :: rest => move.Honest x ∧ HonestRun (act x move) rest

end LinkMove

/-- **What the links promise** about the messages of one end, given the other: they arrive as they were sent,
each once, and what has not arrived is still kept. -/
structure LinkEnd.Delivers (a b : LinkEnd) : Prop where
  /-- So many messages have been accepted. -/
  enough : b.link.receivedThrough.toNat ≤ a.accepted.length
  /-- What has arrived is the front of what has been accepted. -/
  inOrder : b.delivered = (a.accepted.take b.link.receivedThrough.toNat).map (fun p => p.2.arrived)
  /-- What has not arrived is kept. -/
  kept : ∀ p ∈ a.accepted, b.link.receivedThrough < p.1 →
    ∃ f ∈ a.link.retained.toList, f.seq = p.1 ∧ f.message = .ok p.2.arrived
  /-- Accepted messages are numbered one after the other, as far as the numbers reach. -/
  numbered : ∀ i p, a.accepted[i]? = some p → i + 1 < UInt64.size → p.1.toNat = i + 1
  /-- A refused message takes no number: the link stays as it was. -/
  refused : ∀ m now fault, (a.link.send m now).2 = .error fault → (a.link.send m now).1 = a.link

end Tandem
