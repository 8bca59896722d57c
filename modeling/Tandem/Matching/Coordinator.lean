import Tandem.Fault
import Tandem.Fifo
import Tandem.Matching.Round
/-!
# The matching coordinator

The coordinator keeps the scene, the pending round and the archive of resolved rounds.  Each of its
operations yields the field changes that show the new state to the participants.

The first valid selection of each participant sticks and the completed status is stamped with the later of
the two selections, so that the outcome does not depend on which selection a peer saw first.
-/

namespace Tandem

/-- The points an expired round costs. -/
def matchTimeoutPenalty : Int64 := 1000

/-- The state of the matching task beyond its fields. -/
structure Coordinator where
  /-- The two participants; the first one looks through window 1. -/
  participants : ParticipantId × ParticipantId
  scene : Fifo SceneObject
  /-- The number of the next object in the scene. -/
  nextObject : UInt32
  /-- The round that is pending. -/
  round : Option MatchRound
  /-- The resolved rounds, oldest first. -/
  archive : Fifo MatchRound
  roundsOpened : Nat
  /-- The weaknesses of scenes found so far. -/
  warnings : List SceneWarning

namespace Coordinator

/-- A coordinator before the first round. -/
def new (participants : ParticipantId × ParticipantId) : Coordinator :=
  ⟨participants, .empty, 1, none, .empty, 0, []⟩

/-- The status of the latest round. -/
def status? (c : Coordinator) : Option RoundStatus :=
  match c.round with
  | some r => some r.status
  | none => c.archive.newest?.map (·.status)

/-- The address of a participant's selection. -/
def selectionKey (p : ParticipantId) : FieldKey := s!"selection-{p.label}"

/-- The address of a participant's centering score. -/
def centeringKey (p : ParticipantId) : FieldKey := s!"centering-{p.label}"

/-- Moves a round that has been resolved to the archive. -/
def resolve (c : Coordinator) (r : MatchRound) (status : RoundStatus) : Coordinator :=
  { c with round := none, archive := c.archive.push { r with status := status } }

/-- Looks the scene over, once for each round. -/
def checkScene (c : Coordinator) : Coordinator :=
  match c.round with
  | none => c
  | some r =>
    if r.sceneChecked then c
    else
      let found := match r.target with
        | none => []
        | some kind => sceneWarnings c.scene.toList kind r.windows
      { c with round := some { r with sceneChecked := true }, warnings := c.warnings ++ found }

/-- Places an object that is described by the fields of the task.  The scene is numbered in this order, so
both peers agree on the numbers. -/
def addObject (c : Coordinator) (s : TaskState) (stamp : Stamp) : Coordinator × List FieldChange :=
  let object : SceneObject :=
    { id := ⟨c.nextObject⟩
      kind := ⟨UInt32.ofNat (s.int "nextobjecttypeid").toInt.toNat⟩
      image := s.text "nextobjectimage"
      x := s.real "nextobjectposx"
      y := s.real "nextobjectposy"
      width := s.real "nextobjectsizex"
      height := s.real "nextobjectsizey" }
  let scene := c.scene.push object
  ({ c with scene := scene, nextObject := c.nextObject + 1 },
    [⟨"objectcount", .int (Int64.ofNat scene.size), stamp⟩])

/-- The target that the fields of the task set; a negative number sets none. -/
def targetOf (s : TaskState) : Option ObjectKind :=
  let id := (s.int "targetobjectid").toInt
  if id < 0 then none else some ⟨UInt32.ofNat id.toNat⟩

/-- Archives a round that is replaced before it was resolved. -/
def expirePending (c : Coordinator) : Coordinator :=
  match c.round with
  | none => c
  | some r => c.resolve r .expired

/-- Clears the scene and opens a round. -/
def newRound (c : Coordinator) (s : TaskState) (due : SessionTime) (stamp : Stamp) :
    Coordinator × List FieldChange :=
  let c := c.expirePending
  let number := c.roundsOpened + 1
  let limitMillis := (s.int "timelimit").toInt.toNat
  let deadline := SessionTime.ofNat (due.ms.toNat + limitMillis)
  let round : MatchRound :=
    { number := number
      target := targetOf s
      windows := (SceneWindow.ofState s 1, SceneWindow.ofState s 2)
      opened := due
      deadline := deadline
      status := .pending
      selections := .empty
      sceneChecked := false }
  ({ c with scene := .empty, nextObject := 1, round := some round, roundsOpened := number },
    [⟨"round-number", .int (Int64.ofNat number), stamp⟩,
      ⟨"round-status", .text RoundStatus.pending.label, stamp⟩,
      ⟨"round-deadline", .int ⟨deadline.ms⟩, stamp⟩,
      ⟨"objectcount", .int 0, stamp⟩,
      ⟨selectionKey c.participants.1, .int (-1), stamp⟩,
      ⟨selectionKey c.participants.2, .int (-1), stamp⟩])

/-- Records a valid selection in the pending round, and completes the round if that satisfies it. -/
def record (c : Coordinator) (r : MatchRound) (p : ParticipantId) (selection : Selection) :
    Coordinator × List FieldChange :=
  let r := { r with selections := r.selections.insert p selection }
  let shown : FieldChange :=
    ⟨selectionKey p, .int (Int64.ofNat selection.object.id.toNat), selection.stamp⟩
  if r.isSatisfied c.participants then
    (c.resolve r .completed,
      [shown, ⟨"round-status", .text RoundStatus.completed.label, r.latestSelection selection.stamp⟩])
  else ({ c with round := some r }, [shown])

/-- Selects an object for a participant.  The scene is looked over first.  A selection outside the time of
the round is refused, so is one of an unknown object; a second selection in a round does nothing. -/
def select (c : Coordinator) (p : ParticipantId) (object : ObjectId) (stamp : Stamp) :
    Coordinator × Except Fault (List FieldChange) :=
  let c := c.checkScene
  match c.round with
  | none => (c, .error (if c.archive.isEmpty then .noActiveRound else .roundAlreadyResolved))
  | some r =>
    if r.status ≠ .pending || !r.covers stamp then (c, .error .roundAlreadyResolved)
    else
      match c.scene.toList.find? (fun o => o.id = object) with
      | none => (c, .error (.invalidSelection object))
      | some found =>
        if r.selections.contains p then (c, .ok [])
        else
          let (c, changes) := c.record r p ⟨object, found.kind, stamp⟩
          (c, .ok changes)

/-- The change that shows a participant's centering score. -/
def centering (p : ParticipantId) (score : Binary64) (stamp : Stamp) : List FieldChange :=
  [⟨centeringKey p, .real score, stamp⟩]

/-- Expires the pending round once its deadline has come.  The penalty is taken off the score. -/
def tick (c : Coordinator) (now : SessionTime) (s : TaskState) : Coordinator × List FieldChange :=
  match c.round with
  | none => (c, [])
  | some r =>
    if r.status = .pending ∧ r.deadline ≤ now then
      let stamp := Stamp.scripted r.deadline
      (c.checkScene.expirePending,
        [⟨"round-status", .text RoundStatus.expired.label, stamp⟩,
          ⟨"score", .int (s.int "score" - matchTimeoutPenalty), stamp⟩])
    else (c, [])

end Coordinator

end Tandem
