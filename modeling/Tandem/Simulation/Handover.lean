import Tandem.Peer.Step
import Tandem.Simulation.Ends
/-!
# Two peers side by side

Without a channel between them, frames are handed over at once: what one peer has to send reaches the other
in the connection that it is in.  A peer without a connection is sent nothing, and the frames for it stay
where they are.
-/

namespace Tandem.Ends

/-- Reports frames of a connection to a peer. -/
def deliverTo (peers : Ends Peer) (r : Role) (epoch : UInt64) (frames : List Frame) : Ends Peer :=
  peers.set r (frames.foldl (fun p f => p.onTransport (.frame epoch f)) (peers.get r))

/-- Hands the frames of one peer over to the other, if that has a connection; tells how many there were. -/
def handOver (peers : Ends Peer) (sender : Role) : Nat × Ends Peer :=
  match (peers.get sender.other).epoch with
  | none => (0, peers)
  | some epoch =>
    let (frames, p) := (peers.get sender).pollTransmit
    (frames.length, (peers.set sender p).deliverTo sender.other epoch frames)

/-- Hands frames over `n` times, from each peer in turn; tells how many there were. -/
def exchange (n : Nat) (sender : Role) (peers : Ends Peer) : Nat × Ends Peer :=
  match n with
  | 0 => (0, peers)
  | n + 1 =>
    let (moved, peers) := peers.handOver sender
    let (more, peers) := exchange n sender.other peers
    (moved + more, peers)

/-- How often frames are handed over in a round: often enough for answers to be answered. -/
def passesInRound : Nat := 8

/-- Lets a duration pass on both peers and hands their frames over; tells how many there were. -/
def round (peers : Ends Peer) (dt : Duration) : Nat × Ends Peer :=
  exchange passesInRound .host ⟨(peers.host.step dt).2, (peers.guest.step dt).2⟩

end Tandem.Ends
