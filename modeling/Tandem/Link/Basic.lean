import Tandem.Fifo
import Tandem.Link.Sequence
import Tandem.Wire.Frame
/-!
# The link to the other peer

The link knows everything about the connection to the other peer except the connection itself: sequence
numbers, acknowledgements, what has to be sent again, signs of life and the grace period for coming back.
Whoever owns the connection reports its events and frames and sends what the link has queued.

A link is connecting, then established.  It is degraded while the other peer is silent or the connection is
gone, returns to established when the peer is heard again, and is closed for good when the grace period has
run out.
-/

namespace Tandem

/-- The settings of a link. -/
structure LinkConfig where
  /-- After this long without sending, a heartbeat is sent. -/
  heartbeatInterval : Duration
  /-- A longer silence of the peer degrades the link. -/
  heartbeatTimeout : Duration
  /-- A degraded link closes after this long. -/
  reconnectGrace : Duration
  /-- How many messages may wait for acknowledgement. -/
  outboundCapacity : Nat
  /-- From this many waiting messages on, the link asks to be spared. -/
  highWatermark : Nat
deriving DecidableEq

/-- The settings when none are chosen. -/
def LinkConfig.standard : LinkConfig :=
  ⟨.ofMillis 250, .ofSeconds 2, .ofSeconds 30, 4096, 3072⟩

/-- The state of a link. -/
inductive LinkState where
  /-- The hello of the peer has not come yet. -/
  | connecting
  | established
  /-- The peer is silent or the connection is gone. -/
  | degraded
  | closed
deriving DecidableEq

/-- The name of a state. -/
def LinkState.label : LinkState → String
  | connecting => "connecting"
  | established => "established"
  | degraded => "degraded"
  | closed => "closed"

/-- Counters over the life of a link. -/
structure LinkStats where
  messagesSent : Nat
  messagesReceived : Nat
  heartbeatsSent : Nat
  framesResent : Nat
  duplicates : Nat
  gaps : Nat
  reconnects : Nat
deriving DecidableEq

/-- Nothing counted yet. -/
def LinkStats.zero : LinkStats := ⟨0, 0, 0, 0, 0, 0, 0⟩

/-- The counters, in the order in which they are reported. -/
def LinkStats.counters (s : LinkStats) : List Nat :=
  [s.messagesSent, s.messagesReceived, s.heartbeatsSent, s.framesResent, s.duplicates, s.gaps, s.reconnects]

/-- One end of the connection between the peers. -/
structure Link where
  config : LinkConfig
  session : SessionId
  localId : ParticipantId
  /-- The participant at the other end, once their hello has come. -/
  remote : Option ParticipantId
  state : LinkState
  /-- Whether there is a connection at the moment. -/
  connected : Bool
  /-- The sequence number of the next message. -/
  nextSeq : UInt64
  /-- The sequenced frames that have not been acknowledged, in the order of sending. -/
  retained : Fifo Frame
  /-- The frames that are ready to be sent. -/
  outbox : Fifo Frame
  /-- The messages that have been received and not fetched. -/
  inbox : Fifo SyncMessage
  received : SequenceTracker
  lastHeard : SessionTime
  lastSent : SessionTime
  /-- The latest session time in a heartbeat of the peer. -/
  peerTime : SessionTime
  /-- Since when the link is degraded, while it is. -/
  degradedSince : Option SessionTime
  stats : LinkStats

namespace Link

/-- A link before its first connection. -/
def new (config : LinkConfig) (session : SessionId) (localId : ParticipantId) : Link :=
  ⟨config, session, localId, none, .connecting, false, 1, .empty, .empty, .empty, .new, .zero, .zero, .zero, none,
    .zero⟩

/-- The sequence number of the last message that was queued. -/
def lastSequence (l : Link) : UInt64 := l.nextSeq - 1

/-- The highest sequence number received without a gap. -/
def receivedThrough (l : Link) : UInt64 := l.received.highest

/-- Whether the link asks to be spared: as many messages wait as the watermark allows. -/
def isBackpressured (l : Link) : Bool := l.config.highWatermark ≤ l.retained.size

/-- Whether sequenced frames may be sent: not before the hello of the peer has come. -/
def canTransmit (l : Link) : Bool :=
  l.connected && l.remote.isSome && (l.state = .established || l.state = .degraded)

/-- Changes the counters. -/
def count (l : Link) (f : LinkStats → LinkStats) : Link := { l with stats := f l.stats }

/-- Enters a state.  Entering the state that already holds changes nothing. -/
def enter (l : Link) (state : LinkState) (now : SessionTime) : Link :=
  if l.state = state then l
  else { l with state := state, degradedSince := if state = .degraded then some now else none }

/-! ## Sending -/

/-- Queues a message outside the sequence, if there is a connection. -/
def pushUnsequenced (l : Link) (m : SyncMessage) (now : SessionTime) : Link :=
  match Frame.ofMessage l.session l.localId unsequenced m with
  | .ok f => if l.connected then { l with outbox := l.outbox.push f, lastSent := now } else l
  | .error _ => l

/-- The hello that tells the peer where to resume. -/
def greeting (l : Link) : SyncMessage := .hello l.localId l.receivedThrough

/-- Queues a sequenced frame and keeps it until it is acknowledged. -/
def enqueue (l : Link) (f : Frame) (now : SessionTime) : Link :=
  let l := { l with
    nextSeq := l.nextSeq + 1
    outbox := if l.canTransmit then l.outbox.push f else l.outbox
    lastSent := if l.canTransmit then now else l.lastSent
    retained := l.retained.push f }
  l.count (fun s => { s with messagesSent := s.messagesSent + 1 })

/-- Sends a message; yields its sequence number.  A refused message leaves the link as it was. -/
def send (l : Link) (m : SyncMessage) (now : SessionTime) : Link × Except Fault UInt64 :=
  if l.state = .closed then (l, .error (.connectionLost "link closed"))
  else if m.isLinkLocal then (l.pushUnsequenced m now, .ok unsequenced)
  else if l.config.outboundCapacity ≤ l.retained.size then
    (l, .error (.outboundFull l.config.outboundCapacity))
  else
    match Frame.ofMessage l.session l.localId l.nextSeq m with
    | .error fault => (l, .error fault)
    | .ok f => (l.enqueue f now, .ok l.nextSeq)

/-- Queues every retained frame again, marked as sent again.  Sequenced frames that were queued before are
among the retained ones and are dropped from the queue. -/
def resend (l : Link) (now : SessionTime) : Link :=
  if !l.connected then l
  else
    let again := l.retained.toList.map (fun f => f.restamped 0 (FrameFlags.none.setResend true))
    let l := { l with
      outbox := .ofList (l.outbox.toList.filter (fun (f : Frame) => f.seq = unsequenced) ++ again)
      lastSent := if l.retained.isEmpty then l.lastSent else now }
    l.count (fun s => { s with framesResent := s.framesResent + again.length })

/-- Forgets the retained frames up to an acknowledged number. -/
def releaseAcked (l : Link) (ack : UInt64) : Link :=
  { l with retained := l.retained.dropWhile (fun f => f.seq ≤ ack) }

/-- The frames to send now, with the current acknowledgement and the flags of the moment. -/
def drainOutbound (l : Link) : List Frame × Link :=
  let spare := FrameFlags.none.setBackpressure l.isBackpressured
  (l.outbox.toList.map (fun f => f.restamped l.receivedThrough (f.header.flags.union spare)),
    { l with outbox := .empty })

/-- Queues the retained frames again after frames were taken and never sent. -/
def requeue (l : Link) (now : SessionTime) : Link := if l.canTransmit then l.resend now else l

/-! ## Events of the connection -/

/-- A connection has come up: says hello with what has been received so far. -/
def onConnected (l : Link) (now : SessionTime) : Link :=
  if l.state = .closed then l
  else
    let l := if l.remote.isSome then l.count (fun s => { s with reconnects := s.reconnects + 1 }) else l
    let l := { l with connected := true, outbox := .empty, lastHeard := now }
    l.pushUnsequenced l.greeting now

/-- The connection has dropped.  What was queued is gone; retained frames wait for the next hello. -/
def onDisconnected (l : Link) (now : SessionTime) : Link :=
  if !l.connected then l
  else
    let l := { l with connected := false, outbox := .empty }
    if l.state = .established then l.enter .degraded now else l

/-- Closes the link; nothing is sent afterwards. -/
def close (l : Link) (now : SessionTime) : Link := { l.enter .closed now with outbox := .empty }

/-! ## Receiving -/

/-- The peer has been heard: a degraded link with a connection and a known peer is established again. -/
def revive (l : Link) (now : SessionTime) : Link :=
  if l.state = .degraded && l.connected && l.remote.isSome then l.enter .established now else l

/-- Takes a message outside the sequence. -/
def onLinkMessage (l : Link) (m : SyncMessage) (now : SessionTime) : Link × Except Fault Unit :=
  match m with
  | .hello participant resumeFrom =>
    match l.remote.filter (· ≠ participant) with
    | some known => (l, .error (.transport s!"hello from {participant.label}, expected {known.label}"))
    | none =>
      let l := { l with remote := some participant }.releaseAcked resumeFrom
      ((l.enter .established now).resend now, .ok ())
  | .heartbeat time => ({ l with peerTime := l.peerTime.latest time }.revive now, .ok ())
  | other => (l, .error (.transport s!"{other.kind} sent without a sequence number"))

/-- Takes a message with a sequence number.  A gap degrades the link and asks the peer to send again
everything after what has been received. -/
def onSequenced (l : Link) (seq : UInt64) (m : SyncMessage) (now : SessionTime) : Link × Except Fault Unit :=
  let (received, verdict) := l.received.accept seq
  let l := { l with received := received }
  match verdict with
  | .ok .fresh =>
    let l := { l.revive now with inbox := l.inbox.push m }
    (l.count (fun s => { s with messagesReceived := s.messagesReceived + 1 }), .ok ())
  | .ok .duplicate => (l.count (fun s => { s with duplicates := s.duplicates + 1 }), .ok ())
  | .error fault =>
    let l := (l.count (fun s => { s with gaps := s.gaps + 1 })).enter .degraded now
    (l.pushUnsequenced l.greeting now, .error fault)

/-- Takes a frame from the connection. -/
def onFrame (l : Link) (f : Frame) (now : SessionTime) : Link × Except Fault Unit :=
  if f.header.session ≠ l.session then
    (l, .error (.transport s!"frame for session {f.header.session.label} on session {l.session.label}"))
  else if l.state = .closed then (l, .ok ())
  else
    let l := { l with lastHeard := now }.releaseAcked f.header.ack
    match f.message with
    | .error fault => (l, .error fault)
    | .ok m => if f.seq = unsequenced then l.onLinkMessage m now else l.onSequenced f.seq m now

/-- Takes the messages that have been received, in the order in which the peer sent them. -/
def drainInbound (l : Link) : List SyncMessage × Link := (l.inbox.toList, { l with inbox := .empty })

/-! ## Time -/

/-- Sends a heartbeat if nothing else has been sent for the heartbeat interval. -/
def beat (l : Link) (now : SessionTime) : Link :=
  if l.connected && l.outbox.isEmpty && l.config.heartbeatInterval ≤ now.since l.lastSent then
    (l.count (fun s => { s with heartbeatsSent := s.heartbeatsSent + 1 })).pushUnsequenced (.heartbeat now) now
  else l

/-- Lets the timers run: heartbeat, silence of the peer, grace period.  The fault that ends the session is
reported once, when the grace period runs out. -/
def tick (l : Link) (now : SessionTime) : Link × Except Fault Unit :=
  match l.state with
  | .closed | .connecting => (l, .ok ())
  | .established =>
    let l := if l.config.heartbeatTimeout < now.since l.lastHeard then l.enter .degraded now else l
    (l.beat now, .ok ())
  | .degraded =>
    if l.config.reconnectGrace < now.since (l.degradedSince.getD now) then
      ({ l.enter .closed now with outbox := .empty }, .error .sessionAborted)
    else (l.beat now, .ok ())

end Link

end Tandem
