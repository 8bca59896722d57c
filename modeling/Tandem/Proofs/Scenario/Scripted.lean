import Tandem.Proofs.Task.InputWrites
import Tandem.Proofs.Matching.Rounds
/-!
# What the script writes

Each peer runs the commands of the script when its own clock comes to them, so between two commands its fields may
have been written by inputs that the other peer has not applied yet.  Nevertheless a command writes the same on
both.  What it writes depends on the matching coordinator and on few fields, and of a field that inputs write it
depends on the type only (`Battery.scripted_congr`).  The values that inputs write are of the type that the field
has from the start, so that the type is the same everywhere.

So the script can be played on its own (`Battery.play`), without any input, and what it writes there is what it
writes on both peers.
-/

namespace Tandem

namespace Battery

/-! ## The writes of a command -/

/-- The coordinator after a command, and what the command writes to its task. -/
def scripted (b : Battery) (c : ScenarioCommand) : Coordinator × List FieldChange :=
  match c.payload with
  | .act (.task t) .addObject => b.matching.addObject (b.store.read t) c.stamp
  | .act (.task t) .newRound => b.matching.newRound (b.store.read t) c.due c.stamp
  | .act (.task _) a => (b.matching, a.changes c.stamp)
  | .set (.task t) key raw => (b.matching, ((b.store.read t).parameterChanges? key raw c.stamp).getD [])
  | _ => (b.matching, [])

/-- What a command writes to one field. -/
def scriptedAt (b : Battery) (c : ScenarioCommand) (t : TaskId) (key : FieldKey) : List FieldChange :=
  if c.payload.task? = some t then (b.scripted c).2.filter (fun d => d.key = key) else []

theorem applyScripted_fst (b : Battery) (t : TaskId) (changes : List FieldChange) :
    (b.applyScripted t changes).1 = (b.apply ⟨t, .scenario, changes⟩).1 := by
  unfold applyScripted
  split
  · rename_i empty
    rw [List.isEmpty_iff.mp empty]
    rfl
  · rfl

/-- A command updates the coordinator and applies what it writes. -/
theorem run_fst (b : Battery) (c : ScenarioCommand) : (b.run c).1 =
    match c.payload.task? with
    | some t => ({ b with matching := (b.scripted c).1 }.apply ⟨t, .scenario, (b.scripted c).2⟩).1
    | none => b := by
  obtain ⟨dueSecond, priority, payload, line, index⟩ := c
  cases payload with
  | act target a =>
    cases target with
    | session => rfl
    | task t => cases a <;> simp only [run, runAction, applyScripted_fst] <;> rfl
  | set target key raw =>
    cases target with
    | session => rfl
    | task t =>
      simp only [run, runParameter, scripted, CommandPayload.task?, CommandPayload.target, Target.task?,
        ScenarioCommand.stamp]
      cases (b.store.read t).parameterChanges? key raw (.scripted _) with
      | none => rfl
      | some changes => exact applyScripted_fst _ _ _

@[simp] theorem matching_run (b : Battery) (c : ScenarioCommand) : (b.run c).1.matching = (b.scripted c).1 := by
  rw [run_fst]
  cases task : c.payload.task? with
  | some t => rfl
  | none =>
    obtain ⟨dueSecond, priority, payload, line, index⟩ := c
    cases payload with
    | act target a =>
      cases target with
      | session => rfl
      | task t => cases task
    | set target key raw =>
      cases target with
      | session => rfl
      | task t => cases task

@[simp] theorem cell?_run (b : Battery) (c : ScenarioCommand) (t : TaskId) (key : FieldKey) :
    (b.run c).1.cell? t key = (b.scriptedAt c t key).foldl writeCell (b.cell? t key) := by
  rw [run_fst, scriptedAt]
  cases c.payload.task? with
  | some u =>
    dsimp only
    rw [cell?_apply, Mutation.writesAt]
    by_cases here : u = t
    · rw [if_pos here, if_pos (congrArg some here)]
      rfl
    · rw [if_neg here, if_neg fun same => here (Option.some.inj same)]
      rfl
  | none => rfl

/-- A command writes to its own task only. -/
theorem read_run (b : Battery) (c : ScenarioCommand) (t : TaskId) : (b.run c).1.store.read t =
    if c.payload.task? = some t then ((b.store.read t).apply .scenario (b.scripted c).2).1 else b.store.read t := by
  rw [run_fst]
  cases c.payload.task? with
  | none => rfl
  | some u =>
    show ((b.store.apply ⟨u, .scenario, (b.scripted c).2⟩).1.read t) = _
    rw [Store.read_apply]
    by_cases here : u = t
    · subst here
      rw [if_pos rfl, if_pos rfl]
    · rw [if_neg here, if_neg fun same => here (Option.some.inj same)]

@[simp] theorem task_read_run (b : Battery) (c : ScenarioCommand) (t : TaskId) :
    ((b.run c).1.store.read t).task = (b.store.read t).task := by
  rw [run_fst]
  split
  · rw [task_read_apply]
  · rfl

/-! ## Where a command writes -/

end Battery

/-- A value of the type that actions write to a field, if they do. -/
def actionType? (key : FieldKey) : Option FieldValue :=
  if key = "running" ∨ key = "visible" ∨ key = "paused" then some (.bool false)
  else if key = "round-status" then some (.text "")
  else if key ∈ ["progresstimer-started", "objectcount", "round-number", "round-deadline"]
    ∨ key.begins "selection-" = true then some (.int 0)
  else none

/-- A change that a command makes to a task. -/
inductive ScriptWrite (s : TaskState) (payload : CommandPayload) (d : FieldChange) : Prop where
  | action {v : FieldValue} (listed : actionType? d.key = some v) (type : v.sameType d.value = true)
  | parameter {t : TaskId} {key : FieldKey} {raw : String} (command : payload = .set (.task t) key raw)
      (address : d.key = (s.task.radioAlias? key).getD key) (value : s.parameterValue? d.key raw = some d.value)
  /-- The lamp of a light whose failure is set. -/
  | lamp {n : UInt8} {on : Bool} (task : s.task = .monitoring) (address : d.key = s!"{(Gauge.light n).address}-on")
      (value : d.value = .bool on)

theorem actionType?_selectionKey (p : ParticipantId) : actionType? (Coordinator.selectionKey p) = some (.int 0) := by
  have letters : ∀ s : String, (Coordinator.selectionKey p).toList ≠ s.toList → Coordinator.selectionKey p ≠ s :=
    fun s differ same => differ (congrArg String.toList same)
  have begins : FieldKey.begins (Coordinator.selectionKey p) "selection-" = true := by
    simp [FieldKey.begins, Coordinator.selectionKey, toString_string]
  rw [actionType?, if_neg, if_neg, if_pos (Or.inr begins)]
  · refine letters _ ?_
    simp [Coordinator.selectionKey, toString_string]
  · rintro (same | same | same) <;> refine letters _ ?_ same <;> simp [Coordinator.selectionKey, toString_string]

/-- A condition that is asked for holds if there is an outcome. -/
theorem of_guard {p : Prop} [Decidable p] {u : Unit} (h : (guard p : Option Unit) = some u) : p := by
  by_cases holds : p
  · exact holds
  · have failed : (guard p : Option Unit) = none := if_neg holds
    rw [failed] at h
    cases h

/-- What an ordinary action writes is of the type that actions write to the field. -/
theorem Action.typed_changes {a : Action} {stamp : Stamp} {d : FieldChange} (mem : d ∈ a.changes stamp) :
    d.stamp = stamp ∧ ∃ v, actionType? d.key = some v ∧ v.sameType d.value = true := by
  have flag : ∀ flags : List (FieldKey × Bool), (∀ f ∈ flags, f.1 ∈ ["running", "visible", "paused"]) →
      d ∈ flags.map (fun f => ⟨f.1, .bool f.2, stamp⟩) →
        d.stamp = stamp ∧ ∃ v, actionType? d.key = some v ∧ v.sameType d.value = true := by
    intro flags listed mem
    obtain ⟨f, flagged, rfl⟩ := List.mem_map.mp mem
    have key := listed f flagged
    simp only [List.mem_cons, List.not_mem_nil, or_false] at key
    exact ⟨rfl, .bool false, if_pos key, rfl⟩
  cases a with
  | startTimer =>
    have timer : actionType? "progresstimer-started" = some (.int 0) := by decide
    rw [List.mem_singleton.mp mem]
    exact ⟨rfl, _, timer, rfl⟩
  | _ => exact flag _ (by decide) mem

/-- A scripted parameter writes its field, in the network field only a mode that there is, and if it makes a light fail or
not, the lamp of that light. -/
theorem TaskState.parameterChanges?_cases {s : TaskState} {key : FieldKey} {raw : String} {stamp : Stamp}
    {changes : List FieldChange} (made : s.parameterChanges? key raw stamp = some changes) {d : FieldChange}
    (mem : d ∈ changes) : d.stamp = stamp ∧
      ((d.key = (s.task.radioAlias? key).getD key ∧ s.parameterValue? d.key raw = some d.value ∧
          (d.key = "network" → (d.value.asText?).any networkModes.contains = true)) ∨
        ∃ n on, s.task = .monitoring ∧ failingLight? ((s.task.radioAlias? key).getD key) = some n ∧
          d.key = s!"{(Gauge.light n).address}-on" ∧ d.value = .bool on) := by
  obtain ⟨value, read, made⟩ := Option.bind_eq_some_iff.mp made
  obtain ⟨_, listed, made⟩ := Option.bind_eq_some_iff.mp made
  cases made
  rcases List.mem_cons.mp mem with rfl | mem
  · exact ⟨rfl, Or.inl ⟨rfl, read, fun network => (of_guard listed).resolve_left (not_not_intro network)⟩⟩
  · obtain ⟨_, monitoring, made⟩ := Option.bind_eq_some_iff.mp (Option.mem_toList.mp mem)
    obtain ⟨n, light, made⟩ := Option.bind_eq_some_iff.mp made
    obtain ⟨failing, -, made⟩ := Option.bind_eq_some_iff.mp made
    cases made
    exact ⟨rfl, Or.inr ⟨n, _, of_guard monitoring, light, rfl, rfl⟩⟩

theorem TaskState.scriptWrite_parameter {s : TaskState} {t : TaskId} {key : FieldKey} {raw : String} {stamp : Stamp}
    {d : FieldChange} (mem : d ∈ (s.parameterChanges? key raw stamp).getD []) :
    d.stamp = stamp ∧ ScriptWrite s (.set (.task t) key raw) d := by
  cases made : s.parameterChanges? key raw stamp with
  | none =>
    rw [made] at mem
    exact absurd mem List.not_mem_nil
  | some changes =>
    rw [made] at mem
    obtain ⟨stamped, ⟨address, value, -⟩ | ⟨n, on, task, -, address, value⟩⟩ := parameterChanges?_cases made mem
    · exact ⟨stamped, .parameter rfl address value⟩
    · exact ⟨stamped, .lamp task address value⟩

namespace Battery

theorem scripted_act (b : Battery) (dueSecond priority line index : Nat) (t : TaskId) {a : Action}
    (ordinary : a ≠ .addObject ∧ a ≠ .newRound) :
    b.scripted ⟨dueSecond, priority, .act (.task t) a, line, index⟩ =
      (b.matching, a.changes (.scripted (.ofSeconds dueSecond))) := by
  cases a with
  | addObject => exact absurd rfl ordinary.1
  | newRound => exact absurd rfl ordinary.2
  | _ => rfl

/-- What an action writes is of the type that actions write to the field. -/
theorem typed_scripted_act {b : Battery} {c : ScenarioCommand} {t : TaskId} {a : Action}
    (acts : c.payload = .act (.task t) a) {d : FieldChange} (mem : d ∈ (b.scripted c).2) :
    d.stamp = c.stamp ∧ ∃ v, actionType? d.key = some v ∧ v.sameType d.value = true := by
  have count : actionType? "objectcount" = some (.int 0) := by decide
  have number : actionType? "round-number" = some (.int 0) := by decide
  have deadline : actionType? "round-deadline" = some (.int 0) := by decide
  have status : actionType? "round-status" = some (.text "") := by decide
  obtain ⟨dueSecond, priority, payload, line, index⟩ := c
  cases acts
  by_cases ordinary : a ≠ .addObject ∧ a ≠ .newRound
  · rw [scripted_act _ _ _ _ _ _ ordinary] at mem
    exact Action.typed_changes mem
  · cases a with
    | addObject =>
      rw [List.mem_singleton.mp mem]
      exact ⟨rfl, _, count, rfl⟩
    | newRound =>
      simp only [scripted, Coordinator.newRound, List.mem_cons, List.not_mem_nil, or_false] at mem
      rcases mem with rfl | rfl | rfl | rfl | rfl | rfl
      · exact ⟨rfl, _, number, rfl⟩
      · exact ⟨rfl, _, status, rfl⟩
      · exact ⟨rfl, _, deadline, rfl⟩
      · exact ⟨rfl, _, count, rfl⟩
      · exact ⟨rfl, _, actionType?_selectionKey _, rfl⟩
      · exact ⟨rfl, _, actionType?_selectionKey _, rfl⟩
    | _ => exact absurd ⟨nofun, nofun⟩ ordinary

/-- What a command writes carries its stamp and is of the listed kinds. -/
theorem scriptWrite {b : Battery} {c : ScenarioCommand} {t : TaskId} (task : c.payload.task? = some t)
    {d : FieldChange} (mem : d ∈ (b.scripted c).2) :
    d.stamp = c.stamp ∧ ScriptWrite (b.store.read t) c.payload d := by
  cases payload : c.payload with
  | act target a =>
    cases target with
    | session =>
      rw [payload] at task
      cases task
    | task u =>
      obtain ⟨stamped, v, listed, type⟩ := typed_scripted_act payload mem
      exact ⟨stamped, .action listed type⟩
  | set target key raw =>
    obtain ⟨dueSecond, priority, _, line, index⟩ := c
    cases payload
    cases target with
    | session => cases task
    | task u =>
      cases task
      exact TaskState.scriptWrite_parameter mem

/-! ## Types are kept -/

/-- Every field that a task starts with is there, with a value of the type that it starts with. -/
def Typed (b : Battery) : Prop :=
  ∀ t key first, (TaskState.initial t).cell? key = some first →
    ∃ held, b.cell? t key = some held ∧ first.value.sameType held.value = true

theorem typed_new (capacity : Nat) (participants : ParticipantId × ParticipantId) :
    (Battery.new capacity participants).Typed := by
  intro t key first start
  refine ⟨first, (cell?_new capacity participants t key).trans start, ?_⟩
  cases first.value <;> rfl

/-- Changes of the right types keep the types. -/
theorem Typed.write {b b' : Battery} (typed : b.Typed) {batch : TaskId → FieldKey → List FieldChange}
    (cells : ∀ t key, b'.cell? t key = (batch t key).foldl writeCell (b.cell? t key))
    (fit : ∀ t key c, c ∈ batch t key → ∀ first, (TaskState.initial t).cell? key = some first →
      first.value.sameType c.value = true) : b'.Typed := by
  intro t key first start
  obtain ⟨held, found, type⟩ := typed t key first start
  have some : (b'.cell? t key).isSome = true := by
    rw [cells, found]
    exact isSome_foldl_writeCell _ rfl
  obtain ⟨after, found'⟩ := Option.isSome_iff_exists.mp some
  refine ⟨after, found', ?_⟩
  rw [cells, found] at found'
  rcases foldl_writeCell_origin found' with same | ⟨c, mem, rfl⟩
  · cases same
    exact type
  · exact fit t key c mem first start

end Battery

/-- The tables of the tasks fit what actions write, and no task starts in the local network mode. -/
theorem TaskId.defaults_fit (t : TaskId) : t.defaults.all (fun d => (actionType? d.1).all (fun v => d.2.sameType v)
    && (d.1 ≠ "network" || d.2 ≠ .text "no")) = true := by
  cases t <;> decide +kernel

theorem sameType_of_actionType? {t : TaskId} {key : FieldKey} {cell : Cell} {v : FieldValue}
    (start : (TaskState.initial t).cell? key = some cell) (listed : actionType? key = some v) :
    cell.value.sameType v = true := by
  have field := List.all_eq_true.mp t.defaults_fit _ (TaskState.mem_defaults_of_cell?_initial start).1
  rw [listed] at field
  exact (Bool.and_eq_true_iff.mp field).1

namespace Battery

theorem mem_scriptedAt {b : Battery} {c : ScenarioCommand} {t : TaskId} {key : FieldKey} {d : FieldChange}
    (mem : d ∈ b.scriptedAt c t key) : c.payload.task? = some t ∧ d ∈ (b.scripted c).2 ∧ d.key = key := by
  unfold scriptedAt at mem
  split at mem
  · rename_i task
    obtain ⟨mem, here⟩ := List.mem_filter.mp mem
    exact ⟨task, mem, of_decide_eq_true here⟩
  · exact absurd mem List.not_mem_nil

theorem Typed.run {b : Battery} (typed : b.Typed) (tasks : ∀ t, (b.store.read t).task = t) (c : ScenarioCommand) :
    (b.run c).1.Typed := by
  refine typed.write (cell?_run b c) fun t key d mem first start => ?_
  obtain ⟨task, made, rfl⟩ := mem_scriptedAt mem
  cases (scriptWrite task made).2 with
  | action listed type => exact FieldValue.sameType_trans (sameType_of_actionType? start listed) type
  | parameter _ _ value =>
    obtain ⟨held, found, type⟩ := typed t d.key first start
    rw [TaskState.parameterValue?, show (b.store.read t).cell? d.key = some held from found] at value
    exact FieldValue.sameType_trans type (FieldValue.sameType_of_coerce? value)
  | @lamp n _ monitoring address value =>
    rw [tasks] at monitoring
    rw [monitoring, address] at start
    rw [value]
    exact FieldValue.sameType_trans (sameType_of_inputType? start (inputType?_lightOn n)) rfl

end Battery

/-! ## What a command reads -/

/-- Two states of a task with the same cells, but for fields that inputs write. -/
structure TaskState.Apart (t : TaskId) (s s' : TaskState) : Prop where
  task : s.task = t
  task' : s'.task = t
  cells : ∀ key, inputType? t key = none → s.cell? key = s'.cell? key

/-- A text that a field shows is the value of its cell. -/
theorem TaskState.of_text_eq {s : TaskState} {key : FieldKey} {word : String} (h : s.text key = word)
    (ne : word ≠ "") : ∃ cell, s.cell? key = some cell ∧ cell.value = .text word := by
  unfold text get? at h
  cases found : s.cell? key with
  | none =>
    rw [found] at h
    exact absurd h.symm ne
  | some cell =>
    obtain ⟨value, stamp⟩ := cell
    rw [found] at h
    cases value with
    | text shown => exact ⟨_, rfl, congrArg FieldValue.text h⟩
    | _ => exact absurd h.symm ne

namespace TaskState.Apart

variable {t : TaskId} {s s' : TaskState}

theorem text_eq (h : Apart t s s') {key : FieldKey} (unlisted : inputType? t key = none) :
    s.text key = s'.text key := by
  rw [text, text, get?, get?, h.cells key unlisted]

/-- Inputs do not write the fields that describe objects and rounds. -/
theorem readKeys_eq (h : Apart t s s') : ∀ key ∈ Coordinator.readKeys, s.cell? key = s'.cell? key := by
  have unlisted : ∀ key ∈ Coordinator.readKeys, inputType? t key = none := by
    cases t <;> decide +kernel
  exact fun key mem => h.cells key (unlisted key mem)

theorem addObject_eq (h : Apart t s s') (c : Coordinator) (stamp : Stamp) :
    c.addObject s stamp = c.addObject s' stamp := Coordinator.addObject_congr h.readKeys_eq c stamp

theorem newRound_eq (h : Apart t s s') (c : Coordinator) (due : SessionTime) (stamp : Stamp) :
    c.newRound s due stamp = c.newRound s' due stamp := by
  rw [Coordinator.newRound_eq, Coordinator.newRound_eq, Coordinator.nextRound_congr h.readKeys_eq rfl]

theorem lightChange?_eq (h : Apart t s s') (key : FieldKey) (value : FieldValue) (stamp : Stamp) :
    s.lightChange? key value stamp = s'.lightChange? key value stamp := by
  unfold lightChange?
  rw [h.task, h.task']
  by_cases monitoring : t = .monitoring
  · subst monitoring
    cases failingLight? key with
    | none => rfl
    | some n =>
      have default := h.text_eq (inputType?_lightDefault n)
      show (guard _ >>= fun _ => value.asBool? >>= fun failing => pure _) = _
      rw [default]
      rfl
  · have failed : (guard (t = .monitoring) : Option Unit) = none := if_neg monitoring
    rw [failed]
    rfl

end TaskState.Apart

theorem FieldValue.coerce?_congr {v w : FieldValue} (h : v.sameType w = true) (raw : String) :
    v.coerce? raw = w.coerce? raw := by
  cases v <;> cases w <;> first | exact absurd h Bool.false_ne_true | rfl

/-- What a parameter is set to depends on the type of its field only. -/
theorem Battery.Typed.parameterValue?_eq {b b' : Battery} (typed : b.Typed) (typed' : b'.Typed) {t : TaskId}
    {key : FieldKey} {first : Cell} (start : (TaskState.initial t).cell? key = some first) (raw : String) :
    (b.store.read t).parameterValue? key raw = (b'.store.read t).parameterValue? key raw := by
  obtain ⟨held, found, type⟩ := typed t key first start
  obtain ⟨held', found', type'⟩ := typed' t key first start
  have here : (b.store.read t).cell? key = some held := found
  have there : (b'.store.read t).cell? key = some held' := found'
  rw [FieldValue.sameType_comm] at type
  rw [TaskState.parameterValue?, TaskState.parameterValue?, here, there]
  exact FieldValue.coerce?_congr (FieldValue.sameType_trans type type') raw

/-- What a parameter writes depends on what it is set to, and on the lamp that goes with it. -/
theorem TaskState.parameterChanges?_congr {s s' : TaskState} (task : s.task = s'.task) {key : FieldKey} {raw : String}
    {stamp : Stamp} (value : s.parameterValue? ((s.task.radioAlias? key).getD key) raw =
      s'.parameterValue? ((s.task.radioAlias? key).getD key) raw)
    (light : ∀ k v, s.lightChange? k v stamp = s'.lightChange? k v stamp) :
    s.parameterChanges? key raw stamp = s'.parameterChanges? key raw stamp := by
  unfold parameterChanges?
  rw [← task]
  dsimp only
  rw [value]
  cases s'.parameterValue? ((s.task.radioAlias? key).getD key) raw with
  | none => rfl
  | some value =>
    show ((guard _ : Option Unit) >>= fun _ => pure _) = _
    rw [light]
    rfl

/-- What an address of a radio's frequency in a scenario stands for. -/
theorem TaskId.of_radioAlias? {t : TaskId} {key k : FieldKey} (h : t.radioAlias? key = some k) :
    t = .communications ∧ ∃ radio ∈ radios, k = radioFrequencyKey radio := by
  obtain ⟨_, communications, h⟩ := Option.bind_eq_some_iff.mp h
  obtain ⟨name, -, found⟩ := Option.bind_eq_some_iff.mp h
  refine ⟨of_guard communications, ?_⟩
  dsimp only at found
  split at found
  · rename_i known
    have mem := List.contains_iff_mem.mp known
    exact ⟨_, mem, (Option.some.inj found).symm⟩
  · cases found

/-- A parameter that a scenario may set is a field of its task from the start. -/
theorem TaskId.exists_default_of_known {t : TaskId} {key : FieldKey} (h : t.isKnownParameter key = true) :
    ∃ d ∈ t.defaults, d.1 = (t.radioAlias? key).getD key := by
  cases stands : t.radioAlias? key with
  | none =>
    simpa [isKnownParameter, stands] using h
  | some k =>
    obtain ⟨rfl, radio, mem, rfl⟩ := of_radioAlias? stands
    have table : ∀ radio ∈ radios, ∃ d ∈ defaults .communications, d.1 = radioFrequencyKey radio := by
      decide +kernel
    exact table radio mem

/-- What a scenario must be like for both peers to end up alike: every parameter is known, and no task is put into
the local network mode. -/
structure ScenarioCommand.Shareable (c : ScenarioCommand) : Prop where
  known : ∀ t key raw, c.payload = .set (.task t) key raw → t.isKnownParameter key = true
  shared : ∀ t raw, c.payload = .set (.task t) "network" raw → Text.trim raw ≠ "no"

namespace Battery

/-- Two batteries that differ in fields that inputs write, if at all. -/
structure Apart (b b' : Battery) : Prop where
  matching : b.matching = b'.matching
  states : ∀ t, TaskState.Apart t (b.store.read t) (b'.store.read t)
  typed : b.Typed
  typed' : b'.Typed

/-- **A command writes the same, whatever inputs have written.** -/
theorem Apart.scripted_eq {b b' : Battery} (h : b.Apart b') {c : ScenarioCommand} (shareable : c.Shareable) :
    b.scripted c = b'.scripted c := by
  obtain ⟨known, -⟩ := shareable
  obtain ⟨dueSecond, priority, payload, line, index⟩ := c
  cases payload with
  | act target a =>
    cases target with
    | session => exact congrArg (·, []) h.matching
    | task t =>
      by_cases ordinary : a ≠ .addObject ∧ a ≠ .newRound
      · rw [scripted_act _ _ _ _ _ _ ordinary, scripted_act _ _ _ _ _ _ ordinary, h.matching]
      · cases a with
        | addObject =>
          show b.matching.addObject _ _ = b'.matching.addObject _ _
          rw [h.matching, (h.states t).addObject_eq]
        | newRound =>
          show b.matching.newRound _ _ _ = b'.matching.newRound _ _ _
          rw [h.matching, (h.states t).newRound_eq]
        | _ => exact absurd ⟨nofun, nofun⟩ ordinary
  | set target key raw =>
    cases target with
    | session => exact congrArg (·, []) h.matching
    | task t =>
      -- The field is there on both sides, with a value of one type.
      obtain ⟨d, mem, same⟩ := TaskId.exists_default_of_known (known t key raw rfl)
      obtain ⟨first, start⟩ := Option.isSome_iff_exists.mp (TaskState.isSome_cell?_initial ⟨d, mem, same⟩)
      have task : (b.store.read t).task = (b'.store.read t).task := (h.states t).task.trans (h.states t).task'.symm
      have changes : ∀ stamp, (b.store.read t).parameterChanges? key raw stamp =
          (b'.store.read t).parameterChanges? key raw stamp := by
        intro stamp
        refine TaskState.parameterChanges?_congr task ?_ fun k v => (h.states t).lightChange?_eq k v stamp
        rw [(h.states t).task]
        exact h.typed.parameterValue?_eq h.typed' start raw
      show (b.matching, _) = (b'.matching, _)
      rw [h.matching, changes]

/-! ## The script on its own -/

/-- Runs commands one after the other. -/
def play (b : Battery) (commands : List ScenarioCommand) : Battery := commands.foldl (fun b c => (b.run c).1) b

/-- What holds of a battery on which only the script has been played. -/
structure Scripted (b : Battery) : Prop where
  task : ∀ t, (b.store.read t).task = t
  typed : b.Typed
  writer : ∀ t key cell, b.cell? t key = some cell → cell.stamp.writer = .scenario
  shared : ∀ t cell, b.cell? t "network" = some cell → cell.value ≠ .text "no"

theorem scripted_new (capacity : Nat) (participants : ParticipantId × ParticipantId) :
    (Battery.new capacity participants).Scripted where
  task := task_read_new capacity participants
  typed := typed_new capacity participants
  writer t key cell found := by
    rw [cell?_new] at found
    rw [(TaskState.mem_defaults_of_cell?_initial found).2]
    rfl
  shared t cell found := by
    rw [cell?_new] at found
    have field := List.all_eq_true.mp t.defaults_fit _ (TaskState.mem_defaults_of_cell?_initial found).1
    simpa using (Bool.and_eq_true_iff.mp field).2

end Battery

theorem FieldValue.text_of_coerce? {v : FieldValue} {raw word : String} (h : v.coerce? raw = some (.text word)) :
    word = Text.trim raw := by
  have type := sameType_of_coerce? h
  cases v with
  | text => exact (text.inj (Option.some.inj h)).symm
  | _ => cases type

theorem FieldValue.text_of_infer {raw word : String} (h : infer raw = .text word) : word = Text.trim raw := by
  unfold infer at h
  dsimp only at h
  generalize readBool? (Text.trim raw) = b, Number.readInt64? (Text.trim raw) = i,
    Number.readBinary64? (Text.trim raw) = x at h
  cases b with
  | some b => cases h
  | none =>
    cases i with
    | some i => cases h
    | none =>
      cases x with
      | some x => cases h
      | none => exact (text.inj h).symm

/-- A scripted value that is a text is the trimmed raw value. -/
theorem TaskState.text_of_parameterValue? {s : TaskState} {key : FieldKey} {raw word : String}
    (h : s.parameterValue? key raw = some (.text word)) : word = Text.trim raw := by
  unfold parameterValue? at h
  cases cell : s.cell? key with
  | none =>
    rw [cell] at h
    exact FieldValue.text_of_infer (Option.some.inj h)
  | some held =>
    rw [cell] at h
    exact FieldValue.text_of_coerce? h

namespace Battery

theorem Scripted.run {b : Battery} (h : b.Scripted) {c : ScenarioCommand} (shareable : c.Shareable) :
    (b.run c).1.Scripted where
  task t := (task_read_run b c t).trans (h.task t)
  typed := h.typed.run h.task c
  writer t key cell found := by
    rw [cell?_run] at found
    rcases foldl_writeCell_origin found with before | ⟨d, mem, rfl⟩
    · exact h.writer t key cell before
    · obtain ⟨task, made, -⟩ := mem_scriptedAt mem
      rw [(scriptWrite task made).1]
      rfl
  shared t cell found := by
    rw [cell?_run] at found
    rcases foldl_writeCell_origin found with before | ⟨d, mem, rfl⟩
    · exact h.shared t cell before
    · obtain ⟨task, made, network⟩ := mem_scriptedAt mem
      have noAction : actionType? "network" = none := by decide
      have noInput : inputType? .monitoring "network" = none := by decide +kernel
      cases (scriptWrite task made).2 with
      | action listed =>
        rw [network, noAction] at listed
        cases listed
      | @parameter u key raw command address value =>
        intro word
        have noRadio : ∀ radio ∈ radios, radioFrequencyKey radio ≠ "network" := by decide
        have raw := TaskState.text_of_parameterValue? (value.trans (congrArg some word))
        cases stands : (b.store.read t).task.radioAlias? key with
        | none =>
          rw [stands, network] at address
          exact shareable.shared u _ (address ▸ command) raw.symm
        | some k =>
          obtain ⟨-, radio, listed, rfl⟩ := TaskId.of_radioAlias? stands
          rw [stands, network] at address
          exact noRadio radio listed address.symm
      | @lamp n on _ address =>
        have lamp := inputType?_lightOn n
        rw [← address, network, noInput] at lamp
        cases lamp

theorem Scripted.play {b : Battery} (h : b.Scripted) {commands : List ScenarioCommand}
    (shareable : ∀ c ∈ commands, c.Shareable) : (b.play commands).Scripted := by
  induction commands generalizing b with
  | nil => exact h
  | cons c rest ih =>
    exact ih (h.run (shareable c List.mem_cons_self)) fun d mem => shareable d (List.mem_cons_of_mem c mem)

end Battery

end Tandem
