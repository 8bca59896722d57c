import Tandem.Battery
import Tandem.Session.StampClock
import Tandem.Wire.Message
/-!
# Reconciling the inputs of two participants

Local input is applied at once and then forwarded.  Forwarded input is run against the state of this peer
under the stamp of its originator, and the values it led to on the other side follow as a delta.  Both go
through the stamp-gated store, so the two sides come to agree in whatever order things arrive.

Tasks in the local network mode stay local: their input is applied on this peer only, and messages of the
other peer about them are dropped.
-/

namespace Tandem

/-- Counters over the life of a reconciler. -/
structure ReconcileStats where
  localInputs : Nat
  remoteInputs : Nat
  remoteDeltas : Nat
  duplicates : Nat
  rejected : Nat
  superseded : Nat
  /-- Local inputs kept on this peer and peer messages dropped, for tasks in the local network mode. -/
  localOnly : Nat
deriving DecidableEq

/-- Nothing counted yet. -/
def ReconcileStats.zero : ReconcileStats := ⟨0, 0, 0, 0, 0, 0, 0⟩

/-- The counters, in the order in which they are reported. -/
def ReconcileStats.counters (s : ReconcileStats) : List Nat :=
  [s.localInputs, s.remoteInputs, s.remoteDeltas, s.duplicates, s.rejected, s.superseded, s.localOnly]

/-- What became of a message of the other peer. -/
inductive RemoteOutcome where
  | applied (outcome : Outcome)
  /-- The input was seen before. -/
  | duplicate
  /-- The task or its coordinator refused the input. -/
  | rejected (fault : Fault)
  /-- The task runs in the local network mode on this peer. -/
  | localTask (task : TaskId)
  /-- The message is not about the state of a task. -/
  | passthrough (message : SyncMessage)
deriving DecidableEq

/-- The reconciling state of one peer. -/
structure Reconciler where
  clock : StampClock
  /-- The highest stamp of the inputs taken from each remote participant. -/
  remoteHigh : OrderedMap ParticipantId Stamp
  stats : ReconcileStats

namespace Reconciler

/-- A reconciler that has seen nothing. -/
def new (localId : ParticipantId) : Reconciler := ⟨.new localId, .empty, .zero⟩

/-- Takes note of a stamp written by the scenario or elsewhere. -/
def observe (r : Reconciler) (s : Stamp) : Reconciler := { r with clock := r.clock.observe s }

/-- Changes the counters. -/
def count (r : Reconciler) (f : ReconcileStats → ReconcileStats) : Reconciler :=
  { r with stats := f r.stats }

/-- Applies a local input; yields the messages for the other peer.

An input that is refused or changes nothing is not forwarded, nor is one for a task in the local network
mode. -/
def onLocalInput (r : Reconciler) (b : Battery) (e : InputEvent) (now : SessionTime) :
    Reconciler × Battery × List SyncMessage :=
  let (stamp, clock) := r.clock.issue now
  let r := { r with clock := clock }.count (fun s => { s with localInputs := s.localInputs + 1 })
  match b.applyInput e stamp (.localInput e.origin) with
  | (b, .error _) => (r.count (fun s => { s with rejected := s.rejected + 1 }), b, [])
  | (b, .ok outcome) =>
    let r := r.count (fun s => { s with superseded := s.superseded + outcome.superseded })
    if outcome.isNoop then (r, b, [])
    else if !(b.store.read e.target).isShared then
      (r.count (fun s => { s with localOnly := s.localOnly + 1 }), b, [])
    else (r, b, [.forward e stamp, .delta e.target outcome.applied])

/-- The fault of an input that is forwarded by someone else than its originator. -/
def misattributed (origin sender : ParticipantId) : Fault :=
  .transport s!"input of {origin.label} forwarded by {sender.label}"

/-- Whether an input was seen before: stamps of one participant strictly increase. -/
def isRepeated (r : Reconciler) (sender : ParticipantId) (stamp : Stamp) : Bool :=
  match r.remoteHigh.get? sender with
  | some high => stamp ≤ high
  | none => false

/-- Applies an input forwarded by the other peer. -/
def onRemoteInput (r : Reconciler) (b : Battery) (sender : ParticipantId) (e : InputEvent) (stamp : Stamp) :
    Reconciler × Battery × RemoteOutcome :=
  if e.origin ≠ sender ∨ stamp.writer ≠ .participant sender then
    (r.count (fun s => { s with rejected := s.rejected + 1 }), b, .rejected (misattributed e.origin sender))
  else if r.isRepeated sender stamp then
    (r.count (fun s => { s with duplicates := s.duplicates + 1 }), b, .duplicate)
  else
    let r := { r.observe stamp with remoteHigh := r.remoteHigh.insert sender stamp }
    let r := r.count (fun s => { s with remoteInputs := s.remoteInputs + 1 })
    match b.applyInput e stamp (.remoteInput sender) with
    | (b, .ok outcome) =>
      (r.count (fun s => { s with superseded := s.superseded + outcome.superseded }), b, .applied outcome)
    | (b, .error fault) => (r.count (fun s => { s with rejected := s.rejected + 1 }), b, .rejected fault)

/-- Applies values computed by the other peer. -/
def onDelta (r : Reconciler) (b : Battery) (sender : ParticipantId) (t : TaskId)
    (changes : List FieldChange) : Reconciler × Battery × RemoteOutcome :=
  let r := changes.foldl (fun r c => r.observe c.stamp) r
  let (b, outcome) := b.apply ⟨t, .remoteDelta sender, changes⟩
  (r.count (fun s =>
      { s with remoteDeltas := s.remoteDeltas + 1, superseded := s.superseded + outcome.superseded }),
    b, .applied outcome)

/-- Takes a message of the other peer. -/
def onRemoteMessage (r : Reconciler) (b : Battery) (sender : ParticipantId) (m : SyncMessage) :
    Reconciler × Battery × RemoteOutcome :=
  match m.task?.filter (fun t => !(b.store.read t).isShared) with
  | some t => (r.count (fun s => { s with localOnly := s.localOnly + 1 }), b, .localTask t)
  | none =>
    match m with
    | .forward e stamp => r.onRemoteInput b sender e stamp
    | .delta t changes => r.onDelta b sender t changes
    | other => (r, b, .passthrough other)

end Reconciler

end Tandem
