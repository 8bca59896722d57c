import Tandem.Task.Effects
import Tandem.Proofs.Store.LastWriter
/-!
# What inputs write

Both peers run an input, each on its own state, and the states may differ.  `InputWrites` lists what an input can
come to: nothing, or one write to each of certain fields, which depend on the input alone.  Everything else that is
said here about the writes of an input is read off that list.

* `Reruns`: two peers that run the same input write the same fields, with values of the same types, unless one of
  them writes nothing.
* `inputType?`: the fields that inputs write, and the types of what they write there.  For a field that a session
  starts with this is the type it has from the start, and the other fields are not addressed by any script.
-/

namespace Tandem

theorem toString_string (s : String) : toString s = s := rfl

namespace FieldKey

/-- Whether an address starts with a stretch of text. -/
def begins (key : FieldKey) (s : String) : Bool := s.toList.isPrefixOf key.toList

/-- Whether an address ends with a stretch of text. -/
def ends (key : FieldKey) (s : String) : Bool := s.toList.reverse.isPrefixOf key.toList.reverse

end FieldKey

/-- A value of the type that inputs write to a field, if they do. -/
def inputType? (t : TaskId) (key : FieldKey) : Option FieldValue :=
  match t with
  | .monitoring =>
    if key.begins "performance-" then some (.int 0)
    else if key.begins "lights-" && (key.ends "-failure" || key.ends "-on") then some (.bool false)
    else if key.begins "scales-" && key.ends "-failure" then some (.text "")
    else none
  | .tracking => if key = "cursor" then some (.point .zero .zero) else none
  | .communications => if key.begins "radio-" && key.ends "-frequency" then some (.real .zero) else none
  | .resources => if key.begins "pump-" && key.ends "-state" then some (.int 0) else none
  | _ => none

section

open TaskState FieldKey

attribute [local simp] inputType? begins ends Gauge.address toString_string List.isPrefixOf

theorem inputType?_hitKey (p : ParticipantId) : inputType? .monitoring (hitKey p) = some (.int 0) := by
  unfold hitKey
  simp

theorem inputType?_falseAlarmKey (p : ParticipantId) :
    inputType? .monitoring (falseAlarmKey p) = some (.int 0) := by
  unfold falseAlarmKey
  simp

theorem inputType?_lightFailure (n : UInt8) :
    inputType? .monitoring s!"{(Gauge.light n).address}-failure" = some (.bool false) := by
  simp

theorem inputType?_lightOn (n : UInt8) :
    inputType? .monitoring s!"{(Gauge.light n).address}-on" = some (.bool false) := by
  simp

theorem inputType?_scaleFailure (n : UInt8) :
    inputType? .monitoring s!"{(Gauge.scale n).address}-failure" = some (.text "") := by
  simp

theorem inputType?_radioFrequencyKey (radio : String) :
    inputType? .communications (radioFrequencyKey radio) = some (.real .zero) := by
  unfold radioFrequencyKey
  simp

theorem inputType?_pumpState (pump : UInt8) :
    inputType? .resources s!"pump-{pump.toNat}-state" = some (.int 0) := by
  simp

theorem inputType?_network (t : TaskId) : inputType? t "network" = none := by
  cases t <;> decide +kernel

/-- The state that a light has by default is not written by inputs. -/
theorem inputType?_lightDefault (n : UInt8) :
    inputType? .monitoring s!"{(Gauge.light n).address}-default" = none := by
  simp

end

/-- What an input can come to under a stamp. -/
inductive InputWrites (stamp : Stamp) : InputPayload → List FieldChange → Prop where
  | nothing (payload : InputPayload) : InputWrites stamp payload []
  | light (n : UInt8) {p : ParticipantId} (writer : stamp.writer = .participant p) (hits falseAlarms : Int64)
      (on : Bool) : InputWrites stamp (.monitoringAck (.light n))
        [⟨TaskState.hitKey p, .int hits, stamp⟩, ⟨TaskState.falseAlarmKey p, .int falseAlarms, stamp⟩,
          ⟨s!"{(Gauge.light n).address}-failure", .bool false, stamp⟩,
          ⟨s!"{(Gauge.light n).address}-on", .bool on, stamp⟩]
  | scale (n : UInt8) {p : ParticipantId} (writer : stamp.writer = .participant p) (hits falseAlarms : Int64)
      (state : String) : InputWrites stamp (.monitoringAck (.scale n))
        [⟨TaskState.hitKey p, .int hits, stamp⟩, ⟨TaskState.falseAlarmKey p, .int falseAlarms, stamp⟩,
          ⟨s!"{(Gauge.scale n).address}-failure", .text state, stamp⟩]
  | move (dx dy x y : Binary64) : InputWrites stamp (.trackingMove dx dy) [⟨"cursor", .point x y, stamp⟩]
  | tune (radio : String) (frequency : Binary64) :
      InputWrites stamp (.communicationTune radio frequency) [⟨radioFrequencyKey radio, .real frequency, stamp⟩]
  | toggle (pump : UInt8) (state : Int64) :
      InputWrites stamp (.pumpToggle pump) [⟨s!"pump-{pump.toNat}-state", .int state, stamp⟩]

/-- The writes of an input are among those listed, whatever the state. -/
theorem TaskState.inputWrites (s : TaskState) (payload : InputPayload) (stamp : Stamp) :
    InputWrites stamp payload (s.inputChanges payload stamp) := by
  unfold inputChanges
  split
  · exact .nothing payload
  · cases payload with
    | monitoringAck gauge =>
      simp only [acknowledgeChanges]
      split
      · rename_i writer
        cases gauge with
        | light n => exact .light n writer _ _ _
        | scale n => exact .scale n writer _ _ _
      · exact .nothing _
    | trackingMove dx dy => exact .move dx dy _ _
    | communicationTune radio frequency =>
      simp only [tuneChanges]
      split
      · exact .tune radio frequency
      · exact .nothing _
    | pumpToggle pump =>
      simp only [toggleChanges]
      split
      · split
        · exact .toggle pump pumpOn
        · split
          · exact .toggle pump pumpOff
          · exact .nothing _
      · exact .nothing _
    | matchSelect object => exact .nothing _
    | matchCentering score => exact .nothing _

namespace InputWrites

variable {stamp : Stamp} {payload : InputPayload} {changes changes' : List FieldChange}

theorem stamp_eq (h : InputWrites stamp payload changes) {c : FieldChange} (mem : c ∈ changes) :
    c.stamp = stamp := by
  cases h <;> grind

/-- What an input writes is of the type that is listed for the field. -/
theorem inputType?_eq (h : InputWrites stamp payload changes) {c : FieldChange} (mem : c ∈ changes) :
    ∃ v, inputType? payload.task c.key = some v ∧ v.sameType c.value = true := by
  cases h with
  | nothing => exact absurd mem List.not_mem_nil
  | light n =>
    simp only [List.mem_cons, List.not_mem_nil, or_false] at mem
    rcases mem with rfl | rfl | rfl | rfl
    · exact ⟨_, inputType?_hitKey _, rfl⟩
    · exact ⟨_, inputType?_falseAlarmKey _, rfl⟩
    · exact ⟨_, inputType?_lightFailure n, rfl⟩
    · exact ⟨_, inputType?_lightOn n, rfl⟩
  | scale n =>
    simp only [List.mem_cons, List.not_mem_nil, or_false] at mem
    rcases mem with rfl | rfl | rfl
    · exact ⟨_, inputType?_hitKey _, rfl⟩
    · exact ⟨_, inputType?_falseAlarmKey _, rfl⟩
    · exact ⟨_, inputType?_scaleFailure n, rfl⟩
  | move =>
    rw [List.mem_singleton.mp mem]
    exact ⟨_, rfl, rfl⟩
  | tune radio =>
    rw [List.mem_singleton.mp mem]
    exact ⟨_, inputType?_radioFrequencyKey radio, rfl⟩
  | toggle pump =>
    rw [List.mem_singleton.mp mem]
    exact ⟨_, inputType?_pumpState pump, rfl⟩

/-- An input writes a field once. -/
theorem apart (h : InputWrites stamp payload changes) : changes.Pairwise (fun c d => c.key ≠ d.key) := by
  have ofType : ∀ {a b : FieldKey} {v w : FieldValue}, inputType? .monitoring a = some v →
      inputType? .monitoring b = some w → v ≠ w → a ≠ b := by
    rintro a b v w first second differ rfl
    exact differ (Option.some.inj (first.symm.trans second))
  have counters : ∀ p, TaskState.hitKey p ≠ TaskState.falseAlarmKey p := by
    intro p same
    have letters := congrArg String.toList same
    unfold TaskState.hitKey TaskState.falseAlarmKey at letters
    simp [toString_string] at letters
  have lamp : ∀ n : UInt8, s!"{(Gauge.light n).address}-failure" ≠ s!"{(Gauge.light n).address}-on" := by
    intro n same
    have letters := congrArg String.toList same
    simp [toString_string] at letters
  cases h with
  | nothing => exact .nil
  | @light n p =>
    have hit := inputType?_hitKey p
    have falseAlarm := inputType?_falseAlarmKey p
    have failure := inputType?_lightFailure n
    have on := inputType?_lightOn n
    simp only [List.pairwise_cons, List.mem_cons, List.not_mem_nil, or_false, forall_eq_or_imp, forall_eq,
      List.Pairwise.nil, and_true, false_imp_iff, implies_true]
    exact ⟨⟨counters p, ofType hit failure nofun, ofType hit on nofun⟩,
      ⟨ofType falseAlarm failure nofun, ofType falseAlarm on nofun⟩, lamp n⟩
  | @scale n p =>
    have hit := inputType?_hitKey p
    have falseAlarm := inputType?_falseAlarmKey p
    have failure := inputType?_scaleFailure n
    simp only [List.pairwise_cons, List.mem_cons, List.not_mem_nil, or_false, forall_eq_or_imp, forall_eq,
      List.Pairwise.nil, and_true, false_imp_iff, implies_true]
    exact ⟨⟨counters p, ofType hit failure nofun⟩, ofType falseAlarm failure nofun⟩
  | move | tune | toggle => exact List.pairwise_singleton _ _

/-- Two runs of an input write the same fields, unless one of them writes nothing. -/
theorem keys_eq (first : InputWrites stamp payload changes) (second : InputWrites stamp payload changes')
    (wrote : changes ≠ []) (wrote' : changes' ≠ []) : changes.map (·.key) = changes'.map (·.key) := by
  cases first with
  | nothing => exact absurd rfl wrote
  | light n writer =>
    cases second with
    | nothing => exact absurd rfl wrote'
    | light n writer' =>
      cases writer.symm.trans writer'
      rfl
  | scale n writer =>
    cases second with
    | nothing => exact absurd rfl wrote'
    | scale n writer' =>
      cases writer.symm.trans writer'
      rfl
  | move =>
    cases second with
    | nothing => exact absurd rfl wrote'
    | move => rfl
  | tune =>
    cases second with
    | nothing => exact absurd rfl wrote'
    | tune => rfl
  | toggle =>
    cases second with
    | nothing => exact absurd rfl wrote'
    | toggle => rfl

/-- Only the frequency of a radio is a number, and it does not depend on the state. -/
theorem frequency_eq (first : InputWrites stamp payload changes) (second : InputWrites stamp payload changes')
    {c d : FieldChange} (mem : c ∈ changes) (mem' : d ∈ changes') {x : Binary64} (number : d.value = .real x) :
    c.value = d.value := by
  cases second with
  | nothing => exact absurd mem' List.not_mem_nil
  | tune radio frequency =>
    cases first with
    | nothing => exact absurd mem List.not_mem_nil
    | tune => rw [List.mem_singleton.mp mem, List.mem_singleton.mp mem']
  | light => simp only [List.mem_cons, List.not_mem_nil, or_false] at mem'; grind
  | scale => simp only [List.mem_cons, List.not_mem_nil, or_false] at mem'; grind
  | move => cases List.mem_singleton.mp mem'; cases number
  | toggle => cases List.mem_singleton.mp mem'; cases number

end InputWrites

theorem FieldValue.sameType_comm (v w : FieldValue) : v.sameType w = w.sameType v := by
  cases v <;> cases w <;> rfl

theorem FieldValue.sameType_trans {u v w : FieldValue} (first : u.sameType v = true)
    (second : v.sameType w = true) : u.sameType w = true := by
  cases u <;> cases v <;> cases w <;> first | rfl | exact first | exact second

/-- What a forwarded input writes where it is run once more, next to what it wrote where it was made. -/
theorem InputWrites.rerun {stamp : Stamp} {payload : InputPayload} {changes changes' : List FieldChange}
    (first : InputWrites stamp payload changes) (second : InputWrites stamp payload changes') {c d : FieldChange}
    (mem : c ∈ changes) (mem' : d ∈ changes') (key : c.key = d.key) : c.value.Rerun d.value := by
  obtain ⟨v, listed, type⟩ := first.inputType?_eq mem
  obtain ⟨w, listed', type'⟩ := second.inputType?_eq mem'
  rw [key, listed'] at listed
  cases listed
  rw [FieldValue.sameType_comm] at type
  exact ⟨FieldValue.sameType_trans type type', fun x number => first.frequency_eq second mem mem' number⟩

/-- A field that is written where an input is run once more was written where it was made. -/
theorem InputWrites.exists_rerun {stamp : Stamp} {payload : InputPayload} {changes changes' : List FieldChange}
    (first : InputWrites stamp payload changes) (second : InputWrites stamp payload changes') (wrote : changes' ≠ [])
    {key : FieldKey} {c : FieldChange} (h : writeAt? changes key = some c) :
    ∃ d, writeAt? changes' key = some d ∧ c.stamp = d.stamp ∧ c.value.Rerun d.value := by
  obtain ⟨mem, rfl⟩ := mem_of_writeAt? h
  have listed : c.key ∈ changes'.map (·.key) := by
    rw [← first.keys_eq second (List.ne_nil_of_mem mem) wrote]
    exact List.mem_map_of_mem mem
  obtain ⟨d, mem', same⟩ := List.mem_map.mp listed
  cases found : writeAt? changes' c.key with
  | none => exact absurd same (by simpa using List.find?_eq_none.mp found d mem')
  | some d =>
    obtain ⟨mem', same⟩ := mem_of_writeAt? found
    exact ⟨d, rfl, (first.stamp_eq mem).trans (second.stamp_eq mem').symm, first.rerun second mem mem' same.symm⟩

/-- A field that a session starts with keeps its type under inputs. -/
theorem sameType_of_inputType? {t : TaskId} {key : FieldKey} {cell : Cell} {v : FieldValue}
    (start : (TaskState.initial t).cell? key = some cell) (listed : inputType? t key = some v) :
    cell.value.sameType v = true := by
  have table : ∀ t : TaskId, t.defaults.all
      (fun d => (inputType? t d.1).all (fun v => d.2.sameType v)) = true := by
    intro t
    cases t <;> decide +kernel
  have field := List.all_eq_true.mp (table t) _ (TaskState.mem_defaults_of_cell?_initial start).1
  rw [listed] at field
  exact field

end Tandem
