import Tandem.Peer.Step
import Tandem.Simulation.Channel
/-!
# Two peers on simulated time

A pair is a host and a guest with a channel between them.  A step lets both advance by the same duration,
puts their frames on the channel and delivers what has arrived.  Nothing but the steps moves time, so a
simulation gives the same result whenever it is run.
-/

namespace Tandem

/-- The configuration of a simulated peer: the host is participant 1 and the guest participant 2. -/
def PeerConfig.simulated (role : Role) : PeerConfig :=
  { PeerConfig.standard with
    sessionId := 42
    participant := if role = .host then 1 else 2
    peerParticipant := if role = .host then 2 else 1
    role := role
    connect := some Role.host.simulatedAddress }

/-- Two peers with a channel between them. -/
structure Pair where
  peers : Ends Peer
  channel : Channel
  /-- The time since the beginning of the simulation. -/
  elapsed : Duration

namespace Pair

/-- The step while waiting for both peers to run. -/
def standardStep : Duration := .ofMillis 10

/-- A pair that runs a scenario, before the first connection. -/
def new (configs : Ends PeerConfig) (scenario : String) (channel : ChannelConfig) : Except Fault Pair := do
  let hostCommands ← Peer.loadScenario configs.host scenario
  let guestCommands ← Peer.loadScenario configs.guest scenario
  pure ⟨⟨.new configs.host hostCommands, .new configs.guest guestCommands⟩, .new channel, .zero⟩

/-- The peer at an end. -/
def peer (p : Pair) (r : Role) : Peer := p.peers.get r

/-- Changes the peer at an end. -/
def update (p : Pair) (r : Role) (f : Peer → Peer) : Pair := { p with peers := p.peers.set r (f (p.peer r)) }

/-- Reports to the peers what the channel has for them. -/
def deliver (p : Pair) : Pair :=
  let (events, channel) := p.channel.deliver p.elapsed
  events.foldl (fun p e => p.update e.1 (·.onTransport e.2)) { p with channel := channel }

/-- Puts the frames of a peer on the channel.  Without a connection they are lost. -/
def transmit (p : Pair) (r : Role) : Pair :=
  let (frames, peer) := (p.peer r).pollTransmit
  let p := p.update r (fun _ => peer)
  match peer.epoch with
  | none => p
  | some epoch => { p with channel := frames.foldl (fun c f => c.send r epoch f p.elapsed) p.channel }

/-- Lets a duration pass. -/
def step (p : Pair) (dt : Duration) : Pair :=
  let p := { p with
    elapsed := p.elapsed + dt
    peers := ⟨(p.peers.host.step dt).2, (p.peers.guest.step dt).2⟩ }
  ((p.transmit .host).transmit .guest).deliver

/-- How many steps it takes to fill a duration. -/
def stepsToFill (duration dt : Duration) : Nat := (duration.nanos + dt.nanos - 1) / dt.nanos

/-- Lets a number of steps pass. -/
def steps (dt : Duration) : Nat → Pair → Pair
  | 0, p => p
  | n + 1, p => steps dt n (p.step dt)

/-- Lets steps pass until at least a duration has. -/
def runFor (p : Pair) (duration dt : Duration) : Pair := steps dt (stepsToFill duration dt) p

/-- Opens a connection. -/
def heal (p : Pair) : Pair := { p with channel := p.channel.connect }.deliver

/-- Breaks the connection. -/
def partition (p : Pair) : Pair := { p with channel := p.channel.partition }.deliver

/-- Whether the session runs on both peers. -/
def isRunning (p : Pair) : Bool := p.peers.both (fun q => q.phase = .running)

/-- Lets up to `limit` steps pass until the session runs on both peers; tells whether it does. -/
def awaitRunning : (limit : Nat) → Pair → Bool × Pair
  | 0, p => (p.isRunning, p)
  | limit + 1, p => if p.isRunning then (true, p) else awaitRunning limit (p.step standardStep)

/-- Connects the peers and lets time pass until the session runs on both; tells whether it does within a
duration. -/
def start (p : Pair) (timeout : Duration) : Bool × Pair :=
  awaitRunning (stepsToFill timeout standardStep) p.heal

/-- Whether no message waits for acknowledgement or to be reconciled. -/
def isQuiet (p : Pair) : Bool := p.peers.both (fun q => q.link.retained.isEmpty && q.held.isEmpty)

/-- Lets up to `limit` steps pass until the pair has been quiet after two of them in a row, `quiet` of which
have been counted; tells whether it has. -/
def awaitQuiet (dt : Duration) : (limit quiet : Nat) → Pair → Bool × Pair
  | 0, _, p => (false, p)
  | limit + 1, quiet, p =>
    let p := p.step dt
    let quiet := if p.isQuiet then quiet + 1 else 0
    if 2 ≤ quiet then (true, p) else awaitQuiet dt limit quiet p

/-- Lets at most `limit` steps pass until everything sent has been received and reconciled; tells whether it
has. -/
def settle (p : Pair) (dt : Duration) (limit : Nat) : Bool × Pair := awaitQuiet dt limit 0 p

/-- Whether the peers show the same. -/
def converged (p : Pair) : Bool := p.peers.host.store.agrees p.peers.guest.store

/-- The fields in which the guest differs from the host. -/
def divergence (p : Pair) : List (TaskId × FieldKey) := p.peers.host.store.differences p.peers.guest.store

end Pair

end Tandem
