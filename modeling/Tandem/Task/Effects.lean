import Tandem.Store.TaskState
import Tandem.Session.Input
import Tandem.Scenario.Command
/-!
# What commands and inputs write

Scripted actions, scripted parameters and participant inputs become field changes, computed from the state
of the task.  Both peers run the same functions, so a forwarded input leads to the same kind of writes on
the other side.
-/

namespace Tandem

/-- The bound of the tracking cursor on both axes. -/
def cursorLimit : Binary64 := Binary64.ofInt 1

/-- The pump states that can be toggled. -/
def pumpOff : Int64 := 0
def pumpOn : Int64 := 1

namespace Action

/-- The truth values an action writes. -/
def flags : Action → List (FieldKey × Bool)
  | start => [("running", true), ("visible", true), ("paused", false)]
  | stop => [("running", false), ("visible", false), ("paused", true)]
  | display => [("visible", true)]
  | hide => [("visible", false)]
  | pause => [("paused", true)]
  | resume => [("paused", false)]
  | startTimer | finish | addObject | newRound => []

/-- The writes of a task action.  Starting the progress timer writes the time of the start, as far as it
fits; the actions of the matching scene write nothing here. -/
def changes (a : Action) (stamp : Stamp) : List FieldChange :=
  match a with
  | startTimer =>
    let started : Int := min (stamp.time.ms.toNat : Int) Int64.maxValue.toInt
    [⟨"progresstimer-started", .int (Int64.ofInt started), stamp⟩]
  | _ => a.flags.map (fun flag => ⟨flag.1, .bool flag.2, stamp⟩)

end Action

namespace TaskState

/-- Hits and false alarms of all participants together. -/
def monitoringTotals (s : TaskState) : Int64 × Int64 :=
  s.fields.entries.foldl
    (fun totals e =>
      let count := (e.2.value.asInt?).getD 0
      if (Text.afterLeading? "performance-hit-" e.1).isSome then (totals.1 + count, totals.2)
      else if (Text.afterLeading? "performance-fa-" e.1).isSome then (totals.1, totals.2 + count)
      else totals)
    (0, 0)

/-! ## Scripted parameters -/

/-- The light whose failure a field address names. -/
def failingLight? (key : FieldKey) : Option UInt8 :=
  match FieldKey.segments key with
  | ["lights", n, "failure"] => Number.readUInt8? n
  | _ => none

/-- A light that fails shows the opposite of its default state. -/
def lightChange? (s : TaskState) (key : FieldKey) (value : FieldValue) (stamp : Stamp) :
    Option FieldChange := do
  guard (s.task = .monitoring)
  let n ← failingLight? key
  let failing ← value.asBool?
  let address := (Gauge.light n).address
  pure ⟨s!"{address}-on", .bool ((s.text s!"{address}-default" = "on") != failing), stamp⟩

/-- The value of a scripted parameter: in the type of the field, or in the type that fits if there is no
such field. -/
def parameterValue? (s : TaskState) (key : FieldKey) (raw : String) : Option FieldValue :=
  match s.cell? key with
  | some cell => cell.value.coerce? raw
  | none => some (.infer raw)

/-- The writes of a scripted parameter, none if its value does not fit the field. -/
def parameterChanges? (s : TaskState) (key : FieldKey) (raw : String) (stamp : Stamp) :
    Option (List FieldChange) := do
  let key := (s.task.radioAlias? key).getD key
  let value ← s.parameterValue? key raw
  guard (key ≠ "network" ∨ (value.asText?).any networkModes.contains)
  pure (⟨key, value, stamp⟩ :: (s.lightChange? key value stamp).toList)

/-! ## Participant inputs -/

/-- The address of a participant's hits. -/
def hitKey (p : ParticipantId) : FieldKey := s!"performance-hit-{p.id.toNat}"

/-- The address of a participant's false alarms. -/
def falseAlarmKey (p : ParticipantId) : FieldKey := s!"performance-fa-{p.id.toNat}"

/-- Whether a gauge is failing: a light says so, a scale is stuck up or down. -/
def isFailing (s : TaskState) : Gauge → Bool
  | .light n => s.bool s!"{(Gauge.light n).address}-failure"
  | .scale n =>
    let state := s.text s!"{(Gauge.scale n).address}-failure"
    state = "up" || state = "down"

/-- What an acknowledgement writes to the gauge: its normal state after a hit, the present state again
otherwise. -/
def gaugeChanges (s : TaskState) (gauge : Gauge) (failing : Bool) (stamp : Stamp) : List FieldChange :=
  let address := gauge.address
  match gauge with
  | .light _ =>
    let on := if failing then s.text s!"{address}-default" = "on" else s.bool s!"{address}-on"
    [⟨s!"{address}-failure", .bool false, stamp⟩, ⟨s!"{address}-on", .bool on, stamp⟩]
  | .scale _ =>
    [⟨s!"{address}-failure", .text (if failing then "no" else s.text s!"{address}-failure"), stamp⟩]

/-- The writes of an acknowledgement.

Whatever the state of the gauge, the same fields are written.  The other peer runs the acknowledgement
against its own state and then receives these values under the same stamp; as the fields are the same, the
values replace its own entirely.  Hits and false alarms are counted per participant: each counter has a
single writer, so that acknowledgements of both participants at once all count. -/
def acknowledgeChanges (s : TaskState) (gauge : Gauge) (stamp : Stamp) : List FieldChange :=
  match s.get? s!"{gauge.address}-failure", stamp.writer with
  | some _, .participant p =>
    let failing := s.isFailing gauge
    let hits := s.int (hitKey p) + if failing then 1 else 0
    let falseAlarms := s.int (falseAlarmKey p) + if failing then 0 else 1
    ⟨hitKey p, .int hits, stamp⟩ :: ⟨falseAlarmKey p, .int falseAlarms, stamp⟩
      :: s.gaugeChanges gauge failing stamp
  | _, _ => []

/-- The writes of a cursor displacement. -/
def moveChanges (s : TaskState) (dx dy : Binary64) (stamp : Stamp) : List FieldChange :=
  let (x, y) := ((s.get? "cursor").bind (·.asPoint?)).getD (.zero, .zero)
  let bounded (v : Binary64) := v.clamp (Binary64.ofInt (-1)) cursorLimit
  [⟨"cursor", .point (bounded (x + dx)) (bounded (y + dy)), stamp⟩]

/-- The writes of tuning a radio; an unknown radio takes none. -/
def tuneChanges (s : TaskState) (radio : String) (frequency : Binary64) (stamp : Stamp) :
    List FieldChange :=
  let key := radioFrequencyKey radio
  if s.contains key then [⟨key, .real frequency, stamp⟩] else []

/-- The writes of toggling a pump; a failed or unknown pump takes none. -/
def toggleChanges (s : TaskState) (pump : UInt8) (stamp : Stamp) : List FieldChange :=
  let key := s!"pump-{pump.toNat}-state"
  match (s.get? key).bind (·.asInt?) with
  | some state =>
    if state = pumpOff then [⟨key, .int pumpOn, stamp⟩]
    else if state = pumpOn then [⟨key, .int pumpOff, stamp⟩]
    else []
  | none => []

/-- The writes of an input in the present state of the task, none unless the task takes input.  Inputs of the
matching task are the business of its coordinator and write nothing here. -/
def inputChanges (s : TaskState) (payload : InputPayload) (stamp : Stamp) : List FieldChange :=
  if !s.acceptsInput then [] else
  match payload with
  | .monitoringAck gauge => s.acknowledgeChanges gauge stamp
  | .trackingMove dx dy => s.moveChanges dx dy stamp
  | .communicationTune radio frequency => s.tuneChanges radio frequency stamp
  | .pumpToggle pump => s.toggleChanges pump stamp
  | .matchSelect _ | .matchCentering _ => []

end TaskState

end Tandem
