import Tandem.Fifo
import Tandem.Peer.Basic
import Tandem.Simulation.Ends
/-!
# A simulated connection

The channel stands for the byte stream between the two peers, so within a connection it neither loses nor
reorders frames.  What it does instead: every frame takes its time, a frame may be delivered twice, and the
connection may break, with the loss of all that is on the way.  A connection that is opened after a break has
the next epoch.

Time is counted from the beginning of the simulation.
-/

namespace Tandem

/-- How a channel treats frames. -/
structure ChannelConfig where
  /-- How long every frame takes. -/
  latency : Duration
  /-- What a frame takes on top of that. -/
  jitter : Duration
  /-- Whether every frame is delivered twice. -/
  repeats : Bool
deriving DecidableEq

namespace ChannelConfig

/-- Delivery without any delay. -/
def ideal : ChannelConfig := ⟨.zero, .zero, false⟩

/-- The delay of a connection of ordinary quality. -/
def ordinary : ChannelConfig := { ideal with latency := .ofMillis 20 }

/-- The delay of a slow connection. -/
def slow : ChannelConfig := { ideal with latency := .ofMillis 120 }

/-- Delivery after a fixed time. -/
def fixed (latency : Duration) : ChannelConfig := { ideal with latency := latency }

end ChannelConfig

/-- Counters over the life of a channel. -/
structure ChannelStats where
  sent : Nat
  delivered : Nat
  duplicated : Nat
  /-- Frames that were on the way when a connection broke, or were sent over one that was not open. -/
  dropped : Nat
  partitions : Nat
deriving DecidableEq

/-- The counters, in the order in which they are reported. -/
def ChannelStats.counters (s : ChannelStats) : List Nat :=
  [s.sent, s.delivered, s.duplicated, s.dropped, s.partitions]

/-- A frame on its way. -/
structure Transit where
  arrival : Duration
  frame : Frame

/-- A connection between two simulated peers. -/
structure Channel where
  config : ChannelConfig
  /-- The epoch of the last connection; zero before the first. -/
  epoch : UInt64
  connected : Bool
  /-- The frames on the way to each end, in the order of sending. -/
  inFlight : Ends (Fifo Transit)
  /-- What has happened to the connection and not been reported yet. -/
  events : List (Role × TransportEvent)
  stats : ChannelStats

namespace Channel

/-- A channel before its first connection. -/
def new (config : ChannelConfig) : Channel := ⟨config, 0, false, ⟨.empty, .empty⟩, [], ⟨0, 0, 0, 0, 0⟩⟩

/-- Whether nothing is on the way. -/
def isIdle (c : Channel) : Bool := c.inFlight.both Fifo.isEmpty

/-- Opens a connection, unless one is open. -/
def connect (c : Channel) : Channel :=
  if c.connected then c
  else
    let epoch := c.epoch + 1
    { c with
      epoch := epoch
      connected := true
      events := c.events ++
        [(.host, .connected epoch Role.guest.simulatedAddress),
          (.guest, .connected epoch Role.host.simulatedAddress)] }

/-- Breaks the connection that is open, with the loss of all that is on the way. -/
def partition (c : Channel) : Channel :=
  if !c.connected then c
  else
    { c with
      connected := false
      inFlight := ⟨.empty, .empty⟩
      events := c.events ++
        [(.host, .disconnected c.epoch "partition"), (.guest, .disconnected c.epoch "partition")]
      stats := { c.stats with
        partitions := c.stats.partitions + 1
        dropped := c.stats.dropped + c.inFlight.host.size + c.inFlight.guest.size } }

/-- When a frame sent now arrives, given what is on the way before it: it does not overtake. -/
def arrivalAfter (c : Channel) (queue : Fifo Transit) (now : Duration) : Duration :=
  let due := now + (c.config.latency + c.config.jitter)
  match queue.newest? with
  | some last => due.longer last.arrival
  | none => due

/-- Sends a frame from an end over the connection of an epoch. -/
def send (c : Channel) (sender : Role) (epoch : UInt64) (f : Frame) (now : Duration) : Channel :=
  let c := { c with stats := { c.stats with sent := c.stats.sent + 1 } }
  if !c.connected || epoch ≠ c.epoch then
    { c with stats := { c.stats with dropped := c.stats.dropped + 1 } }
  else
    let queue := c.inFlight.get sender.other
    let transit : Transit := ⟨c.arrivalAfter queue now, f⟩
    if c.config.repeats then
      { c with
        inFlight := c.inFlight.set sender.other ((queue.push transit).push transit)
        stats := { c.stats with duplicated := c.stats.duplicated + 1 } }
    else { c with inFlight := c.inFlight.set sender.other (queue.push transit) }

/-- Takes the frames that have arrived at an end. -/
def arrivals (c : Channel) (receiver : Role) (now : Duration) : List (Role × TransportEvent) × Channel :=
  let queue := c.inFlight.get receiver
  let arrived := queue.toList.takeWhile (fun t => t.arrival ≤ now)
  (arrived.map (fun t => (receiver, .frame c.epoch t.frame)),
    { c with
      inFlight := c.inFlight.set receiver (queue.dropWhile (fun t => t.arrival ≤ now))
      stats := { c.stats with delivered := c.stats.delivered + arrived.length } })

/-- Takes all that has happened by a time: what happened to the connection first, then the frames for the
host and the frames for the guest. -/
def deliver (c : Channel) (now : Duration) : List (Role × TransportEvent) × Channel :=
  let (toHost, hostDone) := { c with events := [] }.arrivals .host now
  let (toGuest, done) := hostDone.arrivals .guest now
  (c.events ++ toHost ++ toGuest, done)

end Channel

end Tandem
