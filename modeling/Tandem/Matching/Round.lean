import Tandem.Matching.Scene
/-!
# Matching rounds

In a round both participants have to select an object of the target kind before the deadline.  A round is
pending until both selections satisfy it or the deadline passes; then it is completed or expired for good.
-/

namespace Tandem

/-- Where a round stands. -/
inductive RoundStatus where
  | pending
  | completed
  | expired
deriving DecidableEq

/-- The name of a status, as the matching task shows it. -/
def RoundStatus.label : RoundStatus → String
  | pending => "pending"
  | completed => "completed"
  | expired => "expired"

/-- What a participant selected in a round. -/
structure Selection where
  object : ObjectId
  kind : ObjectKind
  stamp : Stamp
deriving DecidableEq

/-- A round of the matching task. -/
structure MatchRound where
  number : Nat
  /-- The kind that both must select; without one, any kind on which both agree. -/
  target : Option ObjectKind
  windows : SceneWindow × SceneWindow
  /-- The due time of the command that opened the round. -/
  opened : SessionTime
  deadline : SessionTime
  status : RoundStatus
  /-- The first valid selection of each participant. -/
  selections : OrderedMap ParticipantId Selection
  /-- Whether the scene has been looked over for this round. -/
  sceneChecked : Bool

namespace MatchRound

/-- Whether two kinds satisfy a target. -/
def satisfies (target : Option ObjectKind) (a b : ObjectKind) : Bool :=
  match target with
  | some kind => a = kind && b = kind
  | none => a = b

/-- Whether the selections of the two participants satisfy the round. -/
def isSatisfied (r : MatchRound) (participants : ParticipantId × ParticipantId) : Bool :=
  match r.selections.get? participants.1, r.selections.get? participants.2 with
  | some a, some b => satisfies r.target a.kind b.kind
  | _, _ => false

/-- Whether a stamp falls into the time of the round. -/
def covers (r : MatchRound) (s : Stamp) : Bool := r.opened ≤ s.time && s.time < r.deadline

/-- The highest stamp of the selections, `fallback` if there is none. -/
def latestSelection (r : MatchRound) (fallback : Stamp) : Stamp :=
  match r.selections.values with
  | [] => fallback
  | first :: rest => rest.foldl (fun s selection => s.highest selection.stamp) first.stamp

end MatchRound

end Tandem
