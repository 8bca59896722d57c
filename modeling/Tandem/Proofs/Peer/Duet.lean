import Tandem.Proofs.Peer.Runs
import Tandem.Simulation.Ends
/-!
# Two peers and a connection

A *duet* is a session seen from outside: two peers, and a connection that keeps the frames on the way to each end
in the order of sending.  Every peer has a clock of its own and is driven on its own; the connection may be broken
and opened again, and then everything on the way is lost.  A peer is told of that at its own time, and as long as
it has not been told of the new connection it takes nothing from it and what it sends is lost.

`Duet.ranOut` records the rounds that have run out of their time.  No peer reads it: a peer forgets whether an
archived round ran out or was replaced by the next one.
-/

namespace Tandem

/-! ## The round that runs out in a step -/

namespace Peer

/-- The round that the fourth stage of a step expires. -/
def expiring? (p : Peer) : Option MatchRound :=
  let q := p.dispatched.releaseHeld
  if q.phase = .running then
    q.battery.matching.round.filter
      (fun r => r.status = .pending ∧ r.deadline ≤ p.heard.now.earliest q.peerWatermark)
  else none

/-- The rounds that run out in an action. -/
def runsOut (p : Peer) : PeerAction → List MatchRound
  | .step dt => (p.advanced dt).expiring?.toList
  | _ => []

end Peer

/-- Whether an action is up to the peer's own side, and no business of the connection. -/
def PeerAction.isOwn : PeerAction → Bool
  | transport _ | pollTransmit => false
  | _ => true

/-! ## Duets -/

/-- Two peers and the connection between them. -/
structure Duet where
  peers : Ends Peer
  /-- The frames on the way to each end, in the order of sending. -/
  wires : Ends (List Frame)
  /-- The number of the connection. -/
  epoch : UInt64
  /-- The rounds that have run out of their time at each end, oldest first. -/
  ranOut : Ends (List MatchRound)

/-- What may happen in a duet. -/
inductive DuetMove where
  /-- Something happens to one of the peers that is no business of the connection. -/
  | own (r : Role) (action : PeerAction) (isOwn : action.isOwn = true)
  /-- The connection breaks and another one is opened. -/
  | reopen
  /-- A peer is told of the connection that is open. -/
  | connected (r : Role)
  /-- A peer is told that the connection it was in is gone. -/
  | disconnected (r : Role) (reason : String)
  /-- The frames of a peer are put on the way. -/
  | transmit (r : Role)
  /-- The next frame on the way to a peer arrives. -/
  | receive (r : Role)

namespace DuetMove

/-- A duration passes at an end. -/
def step (r : Role) (dt : Duration) : DuetMove := .own r (.step dt) rfl

/-- The operator at an end pauses the session. -/
def pause (r : Role) : DuetMove := .own r .pause rfl

/-- The operator at an end resumes the session. -/
def resume (r : Role) : DuetMove := .own r .resume rfl

end DuetMove

namespace Duet

/-- The peer at an end. -/
def peer (x : Duet) (r : Role) : Peer := x.peers.get r

/-- Something happens to the peer at an end. -/
def act (x : Duet) (r : Role) (action : PeerAction) : Duet :=
  { x with
    peers := x.peers.set r ((x.peer r).perform action)
    ranOut := x.ranOut.set r (x.ranOut.get r ++ (x.peer r).runsOut action) }

/-- Whether the peer at an end has been told of the connection that is open. -/
def isConnected (x : Duet) (r : Role) : Bool := (x.peer r).epoch = some x.epoch

/-- The duet after a move. -/
def move (x : Duet) : DuetMove → Duet
  | .own r action _ => x.act r action
  | .reopen => { x with wires := ⟨[], []⟩, epoch := x.epoch + 1 }
  | .connected r => x.act r (.transport (.connected x.epoch r.other.simulatedAddress))
  | .disconnected r reason =>
    match (x.peer r).epoch with
    | some epoch => x.act r (.transport (.disconnected epoch reason))
    | none => x
  | .transmit r =>
    let frames := (x.peer r).pollTransmit.1
    let x' := x.act r .pollTransmit
    if x.isConnected r then { x' with wires := x.wires.set r.other (x.wires.get r.other ++ frames) } else x'
  | .receive r =>
    match x.wires.get r with
    | [] => x
    | f :: rest =>
      if x.isConnected r then
        { x with wires := x.wires.set r rest }.act r (.transport (.frame x.epoch f))
      else x

/-- The duet after a run. -/
def after (x : Duet) (moves : List DuetMove) : Duet := moves.foldl move x

/-- The matching coordinator of the peer at an end. -/
def matching (x : Duet) (r : Role) : Coordinator := (x.peer r).battery.matching

/-- The state of the matching task at an end. -/
def shown (x : Duet) (r : Role) : TaskState := (x.peer r).battery.store.read .matching

/-- Everything has been delivered and reconciled, both peers have run the same commands, no round is pending and
the session is not over. -/
structure Settled (x : Duet) : Prop where
  sent : ∀ r, (x.peer r).stats.sendFailures = 0
  delivered : ∀ r, (x.peer r).link.receivedThrough = (x.peer r.other).link.lastSequence
  reconciled : ∀ r, (x.peer r).link.inbox.toList = [] ∧ (x.peer r).held = []
  dispatched : (x.peer .host).queue.pending = (x.peer .guest).queue.pending
  resolved : ∀ r, (x.matching r).round = none
  unfinished : ∀ r, (x.peer r).isFinished = false

/-- The peers tell the same of their rounds. -/
structure Agrees (x : Duet) : Prop where
  length : (x.matching .host).archive.toList.length = (x.matching .guest).archive.toList.length
  rounds : ∀ (n : Nat) (a b : MatchRound), (x.matching .host).archive.toList[n]? = some a →
    (x.matching .guest).archive.toList[n]? = some b → a.status = b.status ∧ a.selections = b.selections
  status : (x.shown .host).get? "round-status" = (x.shown .guest).get? "round-status"
  score : (x.shown .host).get? "score" = (x.shown .guest).get? "score"

end Duet

/-- Two peers that are going to run one script. -/
structure Meeting where
  configs : Ends PeerConfig
  script : List ScenarioCommand

/-- The duet at the beginning of a session. -/
def Meeting.start (w : Meeting) : Duet :=
  ⟨⟨.new w.configs.host w.script, .new w.configs.guest w.script⟩, ⟨[], []⟩, 0, ⟨[], []⟩⟩

/-- A script that is in order is queued as it is at both ends. -/
theorem Meeting.start_of_sorted {w : Meeting} (sorted : w.script.Pairwise (fun a b => a.precedes b = true)) : w.start =
    ⟨⟨{ Peer.new w.configs.host [] with queue := ⟨w.script, 0, false⟩ },
      { Peer.new w.configs.guest [] with queue := ⟨w.script, 0, false⟩ }⟩, ⟨[], []⟩, 0, ⟨[], []⟩⟩ := by
  rw [start, Peer.new_of_sorted _ sorted, Peer.new_of_sorted _ sorted]

end Tandem
