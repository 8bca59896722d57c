import Tandem.Peer.Config
import Tandem.Reconciler
import Tandem.Scenario.Queue
import Tandem.Session.Clock
import Tandem.Store.Record
/-!
# One side of a session

A peer is one participant's side of a session: clock, pending scenario, tasks, reconciler and link.  It does
not touch a connection or the time of day itself; whoever drives it reports the events of the connection,
lets durations pass and sends the frames it yields.

This module has the peer's state and what changes it from outside.  `Tandem.Peer.Step` lets time pass.
-/

namespace Tandem

/-- Where the session stands, as a peer sees it. -/
inductive PeerPhase where
  /-- The clock has not been started. -/
  | waiting
  | running
  | paused
  /-- Ended by the scenario, an operator or the other peer. -/
  | ended
  /-- The other peer did not come back in time. -/
  | aborted
deriving DecidableEq

namespace PeerPhase

/-- Whether the session is over. -/
def isFinished : PeerPhase → Bool
  | ended | aborted => true
  | _ => false

/-- The name of a phase. -/
def label : PeerPhase → String
  | waiting => "waiting_for_peer"
  | running => "running"
  | paused => "paused"
  | ended => "ended"
  | aborted => "aborted"

end PeerPhase

/-- Counters over the life of a peer. -/
structure PeerStats where
  ticks : Nat
  commandsDispatched : Nat
  commandsSkipped : Nat
  /-- Steps on which scenario dispatch was held back to spare the link. -/
  dispatchWithheld : Nat
  inputsSubmitted : Nat
  /-- Inputs discarded because the session was not running. -/
  inputsDropped : Nat
  messagesSent : Nat
  sendFailures : Nat
  remoteRejected : Nat
  linkErrors : Nat
  /-- Frames of a connection that is no longer the current one. -/
  staleFrames : Nat
  mutationsLogged : Nat
deriving DecidableEq

/-- Nothing counted yet. -/
def PeerStats.zero : PeerStats := ⟨0, 0, 0, 0, 0, 0, 0, 0, 0, 0, 0, 0⟩

/-- The counters, in the order in which they are reported. -/
def PeerStats.counters (s : PeerStats) : List Nat :=
  [s.ticks, s.commandsDispatched, s.commandsSkipped, s.dispatchWithheld, s.inputsSubmitted, s.inputsDropped,
    s.messagesSent, s.sendFailures, s.remoteRejected, s.linkErrors, s.staleFrames, s.mutationsLogged]

/-- What the scenario lets the renderer and the operator do. -/
structure SessionOptions where
  showLabels : Bool
  allowEscape : Bool
  allowAltF4 : Bool
deriving DecidableEq

/-- An entry of the session log. -/
inductive LogEntry where
  | mutation (record : MutationRecord)
  /-- A message of the scenario, with the session time of its dispatch. -/
  | message (time : SessionTime) (text : String)
deriving DecidableEq

/-- The record of a logged mutation. -/
def LogEntry.record? : LogEntry → Option MutationRecord
  | mutation r => some r
  | message .. => none

/-- An event of the connection.  Connections are told apart by their epoch. -/
inductive TransportEvent where
  | connected (epoch : UInt64) (address : SocketAddress)
  | frame (epoch : UInt64) (frame : Frame)
  | disconnected (epoch : UInt64) (reason : String)

/-- One participant's side of a session. -/
structure Peer where
  config : PeerConfig
  clock : SessionClock
  queue : CommandQueue
  battery : Battery
  reconciler : Reconciler
  link : Link
  /-- The connection the link uses at the moment. -/
  epoch : Option UInt64
  /-- Local inputs that wait for the next step. -/
  pendingInputs : Fifo InputPayload
  /-- Messages of the other peer that wait for the clock and the scenario of this one to catch up. -/
  held : List SyncMessage
  /-- The latest session time of a message that has been reconciled. -/
  remoteTime : SessionTime
  phase : PeerPhase
  options : SessionOptions
  /-- Frames taken from the link before it was closed. -/
  finalFrames : List Frame
  log : Fifo LogEntry
  stats : PeerStats

namespace Peer

/-- Reads a scenario with the load policy of a configuration; a parameter has to be one of its task. -/
def loadScenario (config : PeerConfig) (text : String) : Except Fault (List ScenarioCommand) :=
  Scenario.load config.loadPolicy TaskId.isKnownParameter text

/-- A peer before its first connection. -/
def new (config : PeerConfig) (commands : List ScenarioCommand) : Peer :=
  { config := config
    clock := .new
    queue := .load commands
    battery := .new config.notificationCapacity config.participants
    reconciler := .new config.localId
    link := .new config.link.linkConfig config.session config.localId
    epoch := none
    pendingInputs := .empty
    held := []
    remoteTime := .zero
    phase := .waiting
    options := ⟨true, true, true⟩
    finalFrames := []
    log := .empty
    stats := .zero }

/-- The session time. -/
def now (p : Peer) : SessionTime := p.clock.now

/-- The tasks of the peer. -/
def store (p : Peer) : Store := p.battery.store

/-- Whether the session is over. -/
def isFinished (p : Peer) : Bool := p.phase.isFinished

/-- The entries of the log from a position on. -/
def loggedFrom (p : Peer) (n : Nat) : List LogEntry := p.log.after n

/-- The mutations in the log from a position on. -/
def recordsFrom (p : Peer) (n : Nat) : List MutationRecord := (p.loggedFrom n).filterMap LogEntry.record?

/-- The mutations in the log. -/
def records (p : Peer) : List MutationRecord := p.recordsFrom 0

/-- The session time up to which every input of the other peer has been reconciled. -/
def peerWatermark (p : Peer) : SessionTime :=
  match p.held with
  | m :: _ => m.writeTime?.getD p.remoteTime
  | [] => p.remoteTime.latest p.link.peerTime

/-- Changes the counters. -/
def count (p : Peer) (f : PeerStats → PeerStats) : Peer := { p with stats := f p.stats }

/-- Takes note of a session time at which the other peer is known to have been. -/
def noteRemoteTime (p : Peer) (t : SessionTime) : Peer := { p with remoteTime := p.remoteTime.latest t }

/-- Sends a message over the link.  What led to it has happened already: if the link refuses it, the peers
differ until a later write to the same fields. -/
def send (p : Peer) (m : SyncMessage) (now : SessionTime) : Peer :=
  match p.link.send m now with
  | (link, .ok _) => { p with link := link }.count (fun s => { s with messagesSent := s.messagesSent + 1 })
  | (link, .error _) => { p with link := link }.count (fun s => { s with sendFailures := s.sendFailures + 1 })

/-- Moves the journal of the store to the log. -/
def flushLog (p : Peer) (now : SessionTime) : Peer :=
  let (journal, store) := p.battery.store.drainJournal
  let entries := journal.map (fun n => LogEntry.mutation (.ofNotification now n))
  { p with battery := { p.battery with store := store }, log := p.log.append entries }.count
    (fun s => { s with mutationsLogged := s.mutationsLogged + journal.length })

/-- Winds the session up: what is pending is dropped, the clock stops and the log is completed. -/
def finish (p : Peer) (now : SessionTime) : Peer :=
  { p with
    queue := p.queue.cancel.2
    pendingInputs := .empty
    held := []
    clock := p.clock.stop }.flushLog now

/-- Winds the session up and closes the link. -/
def conclude (p : Peer) (now : SessionTime) : Peer :=
  let p := p.finish now
  { p with link := p.link.close now, phase := .ended }

/-! ## What the operator does -/

/-- Queues a local input for the next step. -/
def submitInput (p : Peer) (payload : InputPayload) : Peer :=
  { p with pendingInputs := p.pendingInputs.push payload }.count
    (fun s => { s with inputsSubmitted := s.inputsSubmitted + 1 })

/-- Pauses a running session on both peers. -/
def pause (p : Peer) : Peer :=
  if p.phase ≠ .running then p
  else { p with clock := p.clock.pause, phase := .paused }.send (.pause p.now) p.now

/-- Resumes a paused session on both peers. -/
def resume (p : Peer) : Peer :=
  if p.phase ≠ .paused then p
  else { p with clock := p.clock.resume, phase := .running }.send (.resume p.now) p.now

/-- Ends the session.  The other peer is told as far as the link allows; frames not fetched after this are
discarded. -/
def terminate (p : Peer) : Peer :=
  if p.isFinished then p
  else
    let now := p.now
    let p := p.send .finish now
    let (frames, link) := p.link.drainOutbound
    { p with link := link, finalFrames := p.finalFrames ++ frames }.conclude now

/-- Ends the session on the operator's request, unless the scenario forbids that; tells whether it did. -/
def escape (p : Peer) : Bool × Peer :=
  if p.options.allowEscape then (true, p.terminate) else (false, p)

/-! ## What the connection does -/

/-- A waiting host starts the session once the link is established. -/
def maybeStart (p : Peer) (now : SessionTime) : Peer :=
  if p.config.role ≠ .host ∨ p.phase ≠ .waiting ∨ p.link.state ≠ .established then p
  else { p with clock := p.clock.startAt now, phase := .running }.send (.start now) now

/-- Takes a frame of the current connection. -/
def onFrame (p : Peer) (f : Frame) (now : SessionTime) : Peer :=
  let p := match p.link.onFrame f now with
    | (link, .ok ()) => { p with link := link }
    | (link, .error _) => { p with link := link }.count (fun s => { s with linkErrors := s.linkErrors + 1 })
  p.maybeStart now

/-- Takes an event of the connection. -/
def onTransport (p : Peer) (e : TransportEvent) : Peer :=
  match e with
  | .connected epoch _ => { p with epoch := some epoch, link := p.link.onConnected p.now }
  | .frame epoch f =>
    if p.epoch = some epoch then p.onFrame f p.now
    else p.count (fun s => { s with staleFrames := s.staleFrames + 1 })
  | .disconnected epoch _ =>
    if p.epoch = some epoch then { p with epoch := none, link := p.link.onDisconnected p.now } else p

/-- Takes the frames to send over the current connection. -/
def pollTransmit (p : Peer) : List Frame × Peer :=
  let (frames, link) := p.link.drainOutbound
  (p.finalFrames ++ frames, { p with link := link, finalFrames := [] })

/-- Queues unacknowledged messages again after frames were taken and never sent. -/
def requeueOutbound (p : Peer) : Peer := { p with link := p.link.requeue p.now }

/-- Takes the notifications for a renderer. -/
def drainNotifications (p : Peer) : List Notification × Peer :=
  let (notifications, store) := p.battery.store.drainNotifications
  (notifications, { p with battery := { p.battery with store := store } })

end Peer

end Tandem
