import Mathlib.Data.List.Nodup
import Tandem.Proofs.Matching.Kinds
import Tandem.Proofs.Reconcile.Locality
/-!
# The fields that tasks have

A task keeps the fields that it starts with, and each of them keeps its type.  In the course of a session some fields
are added for each participant (`PersonalField`): counters in the monitoring task, and the selection and the centering
score in the matching task.  There are no others.

`Suits` says what a value must be like to stand in a field.  Everything that is written suits its field: what an allowed
command of the script writes (`Battery.Furnished.suits_scripted`), what an input writes
(`Battery.Furnished.suits_input`), and what shows that a round has run out.  So whatever happens to a battery leaves it furnished, as long as the values
that are received suit their fields too, which is the case if they come from a battery that is furnished
(`Battery.Furnished.onLocalInput`).
-/

namespace Tandem

/-! ## Fields -/

/-- The fields that the participants of a crew add to a task. -/
inductive PersonalField (crew : List ParticipantId) : TaskId → FieldKey → FieldValue → Prop where
  | hits {p : ParticipantId} (member : p ∈ crew) (n : Int64) :
      PersonalField crew .monitoring (TaskState.hitKey p) (.int n)
  | falseAlarms {p : ParticipantId} (member : p ∈ crew) (n : Int64) :
      PersonalField crew .monitoring (TaskState.falseAlarmKey p) (.int n)
  | selection {p : ParticipantId} (member : p ∈ crew) (n : Int64) :
      PersonalField crew .matching (Coordinator.selectionKey p) (.int n)
  | centering {p : ParticipantId} (member : p ∈ crew) (score : Binary64) :
      PersonalField crew .matching (Coordinator.centeringKey p) (.real score)

/-- What a value in a field of a task must be like. -/
structure Suits (crew : List ParticipantId) (t : TaskId) (key : FieldKey) (v : FieldValue) : Prop where
  /-- A field that the task starts with keeps its type. -/
  typed : ∀ first, (TaskState.initial t).cell? key = some first → first.value.sameType v = true
  /-- Any other field is added for a participant. -/
  added : (TaskState.initial t).cell? key = none → PersonalField crew t key v
  mode : key = "network" → ∃ mode ∈ networkModes, v = .text mode

/-- The fields of a task are those that it starts with, each of its type, and fields that are added for a crew; its
network mode is one of the four. -/
structure TaskState.Furnished (crew : List ParticipantId) (t : TaskId) (s : TaskState) : Prop where
  defaults : ∀ d ∈ t.defaults, ∃ v, s.get? d.1 = some v ∧ d.2.sameType v = true
  others : ∀ key v, s.get? key = some v → (∀ d ∈ t.defaults, d.1 ≠ key) → PersonalField crew t key v
  network : ∀ v, s.get? "network" = some v → ∃ mode ∈ networkModes, v = .text mode

/-! ### The tables of the tasks -/

theorem TaskId.nodup_defaults (t : TaskId) : (t.defaults.map Prod.fst).Nodup := by
  cases t <;> decide +kernel

/-- A field that a task starts with has the value of the table. -/
theorem TaskState.cell?_initial_of_mem {t : TaskId} {d : FieldKey × FieldValue} (mem : d ∈ t.defaults) :
    (initial t).cell? d.1 = some ⟨d.2, .genesis⟩ := by
  obtain ⟨⟨value, stamp⟩, start⟩ := Option.isSome_iff_exists.mp (isSome_cell?_initial ⟨d, mem, rfl⟩)
  obtain ⟨listed, stamped⟩ := mem_defaults_of_cell?_initial start
  have same := List.inj_on_of_nodup_map t.nodup_defaults listed mem rfl
  rw [start, ← same]
  exact congrArg (fun s => some (Cell.mk value s)) stamped

/-- A field that a task does not start with is not in the table. -/
theorem TaskState.cell?_initial_of_ne {t : TaskId} {key : FieldKey} (other : ∀ d ∈ t.defaults, d.1 ≠ key) :
    (initial t).cell? key = none := by
  cases start : (initial t).cell? key with
  | none => rfl
  | some cell => exact absurd rfl (other _ (mem_defaults_of_cell?_initial start).1)

/-- Every task starts in one of the network modes, if it has any. -/
theorem TaskId.mode_default (t : TaskId) :
    t.defaults.all (fun d => d.1 ≠ "network" || networkModes.any (fun mode => d.2 = .text mode)) = true := by
  cases t <;> decide +kernel

/-- No task starts with a field that is added for a participant. -/
theorem PersonalField.cell?_initial {crew : List ParticipantId} {t : TaskId} {key : FieldKey} {v : FieldValue}
    (h : PersonalField crew t key v) : (TaskState.initial t).cell? key = none := by
  have table : ∀ d ∈ TaskId.defaults .matching,
      FieldKey.begins d.1 "selection-" = false ∧ FieldKey.begins d.1 "centering-" = false := by
    decide +kernel
  cases h with
  | hits => exact TaskState.cell?_initial_counter (begins_hitKey _)
  | falseAlarms => exact TaskState.cell?_initial_counter (begins_falseAlarmKey _)
  | selection =>
    refine TaskState.cell?_initial_of_ne fun d mem same => ?_
    have begins := (table d mem).1
    rw [same, Coordinator.begins_selectionKey] at begins
    cases begins
  | centering =>
    refine TaskState.cell?_initial_of_ne fun d mem same => ?_
    have begins := (table d mem).2
    rw [same, Coordinator.begins_centeringKey] at begins
    cases begins

namespace Suits

variable {crew : List ParticipantId} {t : TaskId} {key : FieldKey} {v w : FieldValue}

theorem personal (h : PersonalField crew t key v) : Suits crew t key v where
  typed first start := by
    rw [h.cell?_initial] at start
    cases start
  added _ := h
  mode network := by
    -- A task to which a field is added starts with a network field.
    have listed : ∃ d ∈ t.defaults, d.1 = "network" := by
      cases h <;> decide +kernel
    have start := TaskState.isSome_cell?_initial listed
    rw [← network, h.cell?_initial] at start
    cases start

/-- A field of the table takes what is of its type, and the network field takes a mode. -/
theorem of_mem {d : FieldKey × FieldValue} (mem : d ∈ t.defaults) (type : d.2.sameType v = true)
    (mode : d.1 = "network" → ∃ mode ∈ networkModes, v = .text mode) : Suits crew t d.1 v where
  typed first start := by
    rw [TaskState.cell?_initial_of_mem mem] at start
    cases start
    exact type
  added none := by
    rw [TaskState.cell?_initial_of_mem mem] at none
    cases none
  mode := mode

/-- The same for a field that is looked up in the table. -/
theorem of_listed (listed : t.defaults.any (fun d => d.1 = key && d.2.sameType w) = true) (type : w.sameType v = true)
    (other : key ≠ "network") : Suits crew t key v := by
  obtain ⟨d, mem, found⟩ := List.any_eq_true.mp listed
  obtain ⟨address, type'⟩ := (Bool.and_eq_true _ _).mp found
  obtain rfl := of_decide_eq_true address
  exact of_mem mem (FieldValue.sameType_trans type' type) fun network => absurd network other

/-- A field of the table that inputs write takes what is of the type that they write. -/
theorem of_inputType? (listed : ∃ d ∈ t.defaults, d.1 = key) (written : inputType? t key = some w)
    (type : w.sameType v = true) : Suits crew t key v := by
  obtain ⟨d, mem, rfl⟩ := listed
  have type' := sameType_of_inputType? (TaskState.cell?_initial_of_mem mem) written
  refine of_mem mem (FieldValue.sameType_trans type' type) fun network => ?_
  rw [network, inputType?_network] at written
  cases written

/-- Each light that the monitoring task starts with has a lamp. -/
theorem lamp {d : FieldKey × FieldValue} (mem : d ∈ TaskId.defaults .monitoring) {n : UInt8}
    (light : TaskState.failingLight? d.1 = some n) (on : Bool) :
    Suits crew .monitoring s!"{(Gauge.light n).address}-on" (.bool on) := by
  have table : ∀ d ∈ TaskId.defaults .monitoring, ∀ n ∈ TaskState.failingLight? d.1,
      ∃ e ∈ TaskId.defaults .monitoring, e.1 = s!"{(Gauge.light n).address}-on" := by
    decide +kernel
  exact of_inputType? (table d mem n light) (inputType?_lightOn n) rfl

/-- A status of a round suits the field that shows it. -/
theorem status (status : RoundStatus) : Suits crew .matching "round-status" (.text status.label) :=
  of_listed (w := .text "") (by decide +kernel) rfl (by decide)

end Suits

/-! ## What an input needs -/

/-- The field without which an input writes nothing. -/
def InputPayload.gate? : InputPayload → Option FieldKey
  | monitoringAck gauge => some gauge.failureKey
  | communicationTune radio _ => some (radioFrequencyKey radio)
  | pumpToggle pump => some s!"pump-{pump.toNat}-state"
  | trackingMove .. | matchSelect _ | matchCentering _ => none

/-- It is neither a counter nor a field of the matching task. -/
theorem InputPayload.gate?_spec {payload : InputPayload} {key : FieldKey} (gate : payload.gate? = some key) :
    payload.task ≠ .matching ∧ (payload.task = .monitoring → key.begins "performance-" = false) := by
  cases payload with
  | monitoringAck gauge =>
    cases gate
    exact ⟨nofun, fun _ => gauge.begins_failureKey⟩
  | communicationTune | pumpToggle => exact ⟨nofun, nofun⟩
  | trackingMove | matchSelect | matchCentering => cases gate

namespace TaskState

theorem get?_of_gate {s : TaskState} {payload : InputPayload} {stamp : Stamp} {d : FieldChange}
    (mem : d ∈ s.inputChanges payload stamp) {key : FieldKey} (gate : payload.gate? = some key) :
    ∃ v, s.get? key = some v := by
  unfold inputChanges at mem
  split at mem
  · exact absurd mem List.not_mem_nil
  · cases payload with
    | monitoringAck gauge =>
      cases gate
      dsimp only [acknowledgeChanges] at mem
      split at mem
      · rename_i v _ found _
        exact ⟨v, found⟩
      · exact absurd mem List.not_mem_nil
    | communicationTune radio frequency =>
      cases gate
      dsimp only [tuneChanges] at mem
      split at mem
      · rename_i held
        obtain ⟨cell, found⟩ := Option.isSome_iff_exists.mp held
        exact ⟨cell.value, congrArg (·.map Cell.value) found⟩
      · exact absurd mem List.not_mem_nil
    | pumpToggle pump =>
      cases gate
      dsimp only [toggleChanges] at mem
      split at mem
      · rename_i state found
        obtain ⟨v, there, -⟩ := Option.bind_eq_some_iff.mp found
        exact ⟨v, there⟩
      · exact absurd mem List.not_mem_nil
    | trackingMove | matchSelect | matchCentering => cases gate

/-- The failure of a light names the light. -/
theorem failingLight?_failureKey (n : UInt8) : failingLight? (Gauge.light n).failureKey = some n := by
  have digits : ∀ n < 256, Number.readUInt8? (toString n) = some (UInt8.ofNat n) ∧ '-' ∉ (toString n).toList := by
    decide +kernel
  obtain ⟨read, plain⟩ := digits n.toNat n.toNat_lt
  have address : FieldKey.segments (Gauge.light n).failureKey = ["lights", toString n.toNat, "failure"] := by
    refine Text.pieces_eq_iff.mpr ⟨List.cons_ne_nil _ _, ?_, ?_⟩
    · simp only [List.forall_mem_cons, List.not_mem_nil, false_imp_iff, implies_true, and_true]
      exact ⟨by decide, plain, by decide⟩
    · refine String.toList_inj.mp ?_
      simp [Gauge.failureKey, Gauge.address, toString_string]
  unfold failingLight?
  rw [address]
  simpa using read

end TaskState

/-! ## Batteries -/

/-- Every field that a task starts with is there, and what is there suits its field. -/
structure Battery.Furnished (crew : List ParticipantId) (b : Battery) : Prop where
  tasks : ∀ t, (b.store.read t).task = t
  participants : ∀ p ∈ [b.matching.participants.1, b.matching.participants.2], p ∈ crew
  present : ∀ t key, ((TaskState.initial t).cell? key).isSome = true → (b.cell? t key).isSome = true
  suits : ∀ t key held, b.cell? t key = some held → Suits crew t key held.value

/-- The participants are the same whatever happens. -/
theorem Battery.participants_perform (b : Battery) (e : BatteryEvent) :
    (b.perform e).matching.participants = b.matching.participants := by
  have moved := b.moves_perform e
  generalize (b.perform e).matching = c at moved
  cases moved with
  | rests | places => rfl
  | opens => exact b.matching.participants_newRound _ _ _
  | selects p object stamp => exact (b.matching.selects_select p object stamp).alike.participants.symm
  | expires now s => exact (b.matching.tick_spec now s).1.participants.symm

namespace Battery.Furnished

variable {crew : List ParticipantId} {b b' : Battery}

/-- What is there is what a furnished task has. -/
theorem state (h : b.Furnished crew) (t : TaskId) : (b.store.read t).Furnished crew t := by
  have held : ∀ {key v}, (b.store.read t).get? key = some v → Suits crew t key v := by
    intro key v found
    obtain ⟨cell, there, rfl⟩ := Option.map_eq_some_iff.mp found
    exact h.suits t key cell there
  refine ⟨fun d mem => ?_, fun key v found other => ?_, fun v found => (held found).mode rfl⟩
  · have start := TaskState.cell?_initial_of_mem mem
    obtain ⟨cell, found⟩ := Option.isSome_iff_exists.mp (h.present t d.1 (by rw [start]; rfl))
    exact ⟨cell.value, congrArg (·.map Cell.value) found, (h.suits t d.1 cell found).typed _ start⟩
  · exact (held found).added (TaskState.cell?_initial_of_ne other)

theorem typed (h : b.Furnished crew) : b.Typed := by
  intro t key first start
  obtain ⟨held, found⟩ := Option.isSome_iff_exists.mp (h.present t key (by rw [start]; rfl))
  exact ⟨held, found, (h.suits t key held found).typed first start⟩

theorem place (h : b.Furnished crew) {c : Coordinator} (same : c.participants = b.matching.participants) :
    Battery.Furnished crew { b with matching := c } :=
  ⟨h.tasks, same ▸ h.participants, h.present, h.suits⟩

/-- **What suits its fields may be written.** -/
theorem apply (h : b.Furnished crew) {m : Mutation} (suits : ∀ d ∈ m.changes, Suits crew m.task d.key d.value) :
    (b.apply m).1.Furnished crew where
  tasks t := (b.task_read_apply m t).trans (h.tasks t)
  participants := h.participants
  present t key start := by
    rw [cell?_apply]
    exact isSome_foldl_writeCell _ (h.present t key start)
  suits t key held found := by
    rw [cell?_apply] at found
    rcases foldl_writeCell_origin found with before | ⟨d, mem, rfl⟩
    · exact h.suits t key held before
    · obtain ⟨rfl, made, rfl⟩ := Mutation.mem_writesAt mem
      exact suits d made

theorem new (capacity : Nat) {participants : ParticipantId × ParticipantId}
    (members : ∀ p ∈ [participants.1, participants.2], p ∈ crew) :
    (Battery.new capacity participants).Furnished crew where
  tasks := task_read_new capacity participants
  participants := members
  present t key start := by rwa [cell?_new]
  suits t key held found := by
    rw [cell?_new] at found
    have listed := (TaskState.mem_defaults_of_cell?_initial found).1
    refine Suits.of_mem listed (by cases held.value <;> rfl) fun network => ?_
    have mode := List.all_eq_true.mp t.mode_default _ listed
    subst network
    simpa using mode

/-! ### The script -/

/-- What an action writes to a task that has it. -/
theorem suits_action {t : TaskId} {a : Action} (allowed : a.allowedFor (.task t) = true) {stamp : Stamp}
    {d : FieldChange} (mem : d ∈ a.changes stamp) : Suits crew t d.key d.value := by
  have table : ∀ key ∈ ["running", "visible", "paused"], key ≠ "network" ∧
      t.defaults.any (fun d => d.1 = key && d.2.sameType (.bool false)) = true := by
    cases t <;> decide +kernel
  have flag : ∀ flags : List (FieldKey × Bool), (∀ f ∈ flags, f.1 ∈ ["running", "visible", "paused"]) →
      d ∈ flags.map (fun f => ⟨f.1, .bool f.2, stamp⟩) → Suits crew t d.key d.value := by
    intro flags known mem
    obtain ⟨f, flagged, rfl⟩ := List.mem_map.mp mem
    obtain ⟨other, listed⟩ := table f.1 (known f flagged)
    exact .of_listed listed rfl other
  cases a with
  | startTimer =>
    have timer : ∀ n, Suits crew .resources "progresstimer-started" (.int n) := fun n =>
      .of_listed (w := .int 0) (by decide +kernel) rfl (by decide)
    obtain rfl : t = .resources := of_decide_eq_true allowed
    rw [List.mem_singleton.mp mem]
    exact timer _
  | _ => exact flag _ (by decide) mem

/-- What a parameter writes that its task has. -/
theorem suits_parameter (h : b.Furnished crew) {t : TaskId} {key : FieldKey} (known : t.isKnownParameter key = true)
    {raw : String} {stamp : Stamp} {changes : List FieldChange}
    (made : (b.store.read t).parameterChanges? key raw stamp = some changes) {d : FieldChange} (mem : d ∈ changes) :
    Suits crew t d.key d.value := by
  obtain ⟨e, listed, address⟩ := TaskId.exists_default_of_known known
  obtain ⟨-, ⟨key', value, mode⟩ | ⟨n, on, task, light, key', value⟩⟩ := TaskState.parameterChanges?_cases made mem
  · rw [h.tasks t, ← address] at key'
    obtain ⟨held, found, type⟩ := h.typed t e.1 _ (TaskState.cell?_initial_of_mem listed)
    rw [key', TaskState.parameterValue?, show (b.store.read t).cell? e.1 = some held from found] at value
    rw [key']
    refine .of_mem listed (FieldValue.sameType_trans type (FieldValue.sameType_of_coerce? value)) fun network => ?_
    have mode := mode (key'.trans network)
    cases shown : d.value with
    | text word =>
      rw [shown] at mode
      exact ⟨word, List.contains_iff_mem.mp mode, rfl⟩
    | _ =>
      rw [shown] at mode
      cases mode
  · rw [h.tasks t] at task light
    subst task
    rw [key', value]
    exact .lamp listed (address ▸ light) on

/-- **What a command writes** that asks of its task what the task has. -/
theorem suits_scripted (h : b.Furnished crew) {c : ScenarioCommand} (allowed : c.payload.isAllowed = true)
    (known : c.SetsKnown) {t : TaskId} (task : c.payload.task? = some t) {d : FieldChange}
    (mem : d ∈ (b.scripted c).2) : Suits crew t d.key d.value := by
  have count : ∀ n, Suits crew .matching "objectcount" (.int n) := fun n =>
    .of_listed (w := .int 0) (by decide +kernel) rfl (by decide)
  have number : ∀ n, Suits crew .matching "round-number" (.int n) := fun n =>
    .of_listed (w := .int 0) (by decide +kernel) rfl (by decide)
  have deadline : ∀ n, Suits crew .matching "round-deadline" (.int n) := fun n =>
    .of_listed (w := .int 0) (by decide +kernel) rfl (by decide)
  obtain ⟨dueSecond, priority, payload, line, index⟩ := c
  cases payload with
  | act target a =>
    cases target with
    | session => cases task
    | task u =>
      cases task
      by_cases adds : a = .addObject
      · subst adds
        obtain rfl : t = .matching := of_decide_eq_true allowed
        rw [List.mem_singleton.mp mem]
        exact count _
      by_cases opens : a = .newRound
      · subst opens
        obtain rfl : t = .matching := of_decide_eq_true allowed
        have first := h.participants _ List.mem_cons_self
        have second := h.participants _ (List.mem_cons_of_mem _ List.mem_cons_self)
        simp only [scripted, Coordinator.newRound_eq, List.mem_cons, List.not_mem_nil, or_false] at mem
        rcases mem with rfl | rfl | rfl | rfl | rfl | rfl
        · exact number _
        · exact .status _
        · exact deadline _
        · exact count _
        · exact .personal (.selection first _)
        · exact .personal (.selection second _)
      rw [scripted_act _ _ _ _ _ _ ⟨adds, opens⟩] at mem
      exact suits_action allowed mem
  | set target key raw =>
    cases target with
    | session => cases task
    | task u =>
      cases task
      have mem : d ∈ ((b.store.read t).parameterChanges? key raw _).getD [] := mem
      cases made : (b.store.read t).parameterChanges? key raw (.scripted (.ofSeconds dueSecond)) with
      | none =>
        rw [ScenarioCommand.stamp, ScenarioCommand.due, made] at mem
        exact absurd mem List.not_mem_nil
      | some changes =>
        rw [ScenarioCommand.stamp, ScenarioCommand.due, made] at mem
        exact h.suits_parameter (known t key raw rfl) made mem

theorem run (h : b.Furnished crew) {c : ScenarioCommand} (allowed : c.payload.isAllowed = true) (known : c.SetsKnown) :
    (b.run c).1.Furnished crew := by
  have same : (b.scripted c).1.participants = b.matching.participants :=
    b.matching_run c ▸ b.participants_perform (.run c)
  rw [run_fst]
  cases task : c.payload.task? with
  | none => exact h
  | some t => exact (h.place same).apply fun d mem => h.suits_scripted allowed known task mem

/-! ### Inputs -/

/-- A field that is there, in a task other than the matching task, is one that the task starts with or a counter. -/
theorem listed_of_get? (h : b.Furnished crew) {t : TaskId} {key : FieldKey} {v : FieldValue}
    (found : (b.store.read t).get? key = some v) (unmatched : t ≠ .matching)
    (uncounted : t = .monitoring → key.begins "performance-" = false) : ∃ d ∈ t.defaults, d.1 = key := by
  refine Decidable.byContradiction fun none => ?_
  have personal := (h.state t).others key v found fun d mem same => none ⟨d, mem, same⟩
  cases personal with
  | hits =>
    rw [begins_hitKey] at uncounted
    cases uncounted rfl
  | falseAlarms =>
    rw [begins_falseAlarmKey] at uncounted
    cases uncounted rfl
  | selection | centering => exact unmatched rfl

/-- What an input writes to the fields of its task under the stamp of a participant of the crew. -/
theorem suits_inputChanges (h : b.Furnished crew) {payload : InputPayload} {p : ParticipantId} (member : p ∈ crew)
    {stamp : Stamp} (writer : stamp.writer = .participant p) {d : FieldChange}
    (mem : d ∈ (b.store.read payload.task).inputChanges payload stamp) : Suits crew payload.task d.key d.value := by
  have listed : ∀ key, payload.gate? = some key → ∃ field ∈ payload.task.defaults, field.1 = key := by
    intro key gate
    obtain ⟨v, found⟩ := TaskState.get?_of_gate mem gate
    obtain ⟨unmatched, uncounted⟩ := InputPayload.gate?_spec gate
    exact h.listed_of_get? found unmatched uncounted
  have writes := (b.store.read payload.task).inputWrites payload stamp
  generalize (b.store.read payload.task).inputChanges payload stamp = changes at mem writes
  cases writes with
  | nothing => exact absurd mem List.not_mem_nil
  | light n writer' hits falseAlarms on =>
    cases writer.symm.trans writer'
    simp only [List.mem_cons, List.not_mem_nil, or_false] at mem
    rcases mem with rfl | rfl | rfl | rfl
    · exact .personal (.hits member hits)
    · exact .personal (.falseAlarms member falseAlarms)
    · exact .of_inputType? (listed _ rfl) (inputType?_lightFailure n) rfl
    · obtain ⟨field, start, address⟩ := listed _ rfl
      exact .lamp start (address ▸ TaskState.failingLight?_failureKey n) on
  | scale n writer' hits falseAlarms state =>
    cases writer.symm.trans writer'
    simp only [List.mem_cons, List.not_mem_nil, or_false] at mem
    rcases mem with rfl | rfl | rfl
    · exact .personal (.hits member hits)
    · exact .personal (.falseAlarms member falseAlarms)
    · exact .of_inputType? (listed _ rfl) (inputType?_scaleFailure n) rfl
  | move dx dy x y =>
    have cursor : ∃ field ∈ TaskId.defaults .tracking, field.1 = "cursor" := by decide +kernel
    rw [List.mem_singleton.mp mem]
    exact .of_inputType? cursor rfl rfl
  | tune radio frequency =>
    rw [List.mem_singleton.mp mem]
    exact .of_inputType? (listed _ rfl) (inputType?_radioFrequencyKey radio) rfl
  | toggle pump state =>
    rw [List.mem_singleton.mp mem]
    exact .of_inputType? (listed _ rfl) (inputType?_pumpState pump) rfl

/-- **What an input writes** that a participant of the crew makes. -/
theorem suits_input (h : b.Furnished crew) {e : InputEvent} (aimed : e.target = e.payload.task)
    (origin : e.origin ∈ crew) {p : ParticipantId} (member : p ∈ crew) {stamp : Stamp}
    (writer : stamp.writer = .participant p) {d : FieldChange} (mem : d ∈ (b.inputEffect e stamp).2.toOption.getD []) :
    Suits crew e.target d.key d.value := by
  unfold inputEffect at mem
  split at mem
  · rename_i object selects
    rw [aimed, selects]
    have went := b.matching.selects_select e.origin object stamp
    generalize b.matching.select e.origin object stamp = out at went mem
    cases went with
    | refused | again => exact absurd mem List.not_mem_nil
    | taken =>
      rw [List.mem_singleton.mp mem]
      exact .personal (.selection origin _)
    | completed =>
      rcases List.mem_cons.mp mem with rfl | mem
      · exact .personal (.selection origin _)
      · rw [List.mem_singleton.mp mem]
        exact .status .completed
  · rename_i score centers
    rw [aimed, centers, List.mem_singleton.mp mem]
    exact .personal (.centering origin score)
  · rw [aimed] at mem ⊢
    exact h.suits_inputChanges member writer mem

theorem applyInput (h : b.Furnished crew) {e : InputEvent} (aimed : e.target = e.payload.task) (actor : e.origin ∈ crew)
    {p : ParticipantId} (member : p ∈ crew) {stamp : Stamp} (writer : stamp.writer = .participant p) (origin : Origin) :
    (b.applyInput e stamp origin).1.Furnished crew := by
  have same := b.participants_perform (.input e stamp origin)
  replace same : (b.applyInput e stamp origin).1.matching.participants = b.matching.participants := same
  rw [applyInput_fst] at same ⊢
  split
  · rename_i accepts
    rw [if_pos accepts] at same
    exact (h.place (c := (b.inputEffect e stamp).1) same).apply fun d mem => h.suits_input aimed actor member writer mem
  · exact h

/-! ### Rounds that run out -/

theorem expireRounds (h : b.Furnished crew) (now : SessionTime) : (b.expireRounds now).1.Furnished crew := by
  have score : ∀ n, Suits crew .matching "score" (.int n) := fun n =>
    .of_listed (w := .int 0) (by decide +kernel) rfl (by decide)
  have same := (b.matching.tick_spec now (b.store.read .matching)).1.participants.symm
  have suits : ∀ d ∈ (b.matching.tick now (b.store.read .matching)).2, Suits crew .matching d.key d.value := by
    rw [Coordinator.tick_eq]
    split
    · refine List.forall_mem_cons.mpr ⟨.status .expired, List.forall_mem_singleton.mpr (score _)⟩
    · exact List.forall_mem_nil _
  unfold Battery.expireRounds
  generalize b.matching.tick now (b.store.read .matching) = out at same suits
  obtain ⟨c, changes⟩ := out
  dsimp only
  split
  · exact h.place same
  · exact (h.place (c := c) same).apply (m := ⟨.matching, .scenario, changes⟩) suits

end Battery.Furnished

/-! ## What the peers say -/

/-- What a peer may be told: a forwarded input is for the task that it acts on, and values suit their fields. -/
def SyncMessage.Sane (crew : List ParticipantId) : SyncMessage → Prop
  | forward e _ => e.target = e.payload.task
  | delta t changes => ∀ d ∈ changes, Suits crew t d.key d.value
  | _ => True

/-- A message that is not about the tasks says nothing of them. -/
theorem SyncMessage.sane_of_signal (crew : List ParticipantId) {m : SyncMessage} (signal : m.task?.isSome = false) :
    m.Sane crew := by
  cases m with
  | forward | delta => cases signal
  | heartbeat | hello | start | pause | resume | finish => trivial

namespace Battery.Furnished

variable {crew : List ParticipantId} {b : Battery}

/-- **A message of the other peer** leaves the battery furnished if it is sane. -/
theorem onRemoteMessage (h : b.Furnished crew) (r : Reconciler) {sender : ParticipantId} (member : sender ∈ crew)
    {m : SyncMessage} (sane : m.Sane crew) : (r.onRemoteMessage b sender m).2.1.Furnished crew := by
  unfold Reconciler.onRemoteMessage
  split
  · exact h
  · cases m with
    | forward e stamp =>
      dsimp only [Reconciler.onRemoteInput]
      split
      · exact h
      · rename_i attributed
        obtain ⟨origin, writer⟩ := not_or.mp attributed
        split
        · exact h
        · have actor : e.origin ∈ crew := not_not.mp origin ▸ member
          have applied := h.applyInput sane actor member (not_not.mp writer) (.remoteInput sender)
          generalize b.applyInput e stamp (.remoteInput sender) = out at applied ⊢
          obtain ⟨after, fault | outcome⟩ := out <;> exact applied
    | delta t changes => exact h.apply (m := ⟨t, .remoteDelta sender, changes⟩) sane
    | heartbeat | hello | start | pause | resume | finish => exact h

/-- **An own input** leaves the battery furnished, and what is said of it is sane. -/
theorem onLocalInput (h : b.Furnished crew) {r : Reconciler} (member : r.clock.writer ∈ crew) {e : InputEvent}
    (aimed : e.target = e.payload.task) (actor : e.origin ∈ crew) (now : SessionTime) :
    (r.onLocalInput b e now).2.1.Furnished crew ∧ ∀ m ∈ (r.onLocalInput b e now).2.2, m.Sane crew := by
  have writer := (r.clock.writer_issue now).1
  obtain ⟨-, -, after, said⟩ := r.onLocalInput_outcome b e now
  constructor
  · rw [after]
    exact h.applyInput aimed actor member writer _
  · rcases said with none | ⟨outcome, applied, said⟩
    · rw [none]
      exact List.forall_mem_nil _
    · rw [said]
      refine List.forall_mem_cons.mpr ⟨aimed, List.forall_mem_singleton.mpr fun d mem => ?_⟩
      exact h.suits_input aimed actor member writer ((b.applied_applyInput applied).subset mem)

end Battery.Furnished

end Tandem
