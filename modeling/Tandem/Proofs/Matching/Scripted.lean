import Tandem.Proofs.Scenario.Policies
import Tandem.Proofs.Scenario.Scripted
import Tandem.Scenario.Load
/-!
# Rounds and the script

Two batteries on which the same commands have been run may differ in how rounds went, and in the fields of the matching
task that show it, `Coordinator.outcomeKeys`.  A command of the script does not read the values of those fields, nor how
rounds went, so it does the same on both (`Battery.Abreast.scripted`) and leaves them *abreast*
(`Battery.Abreast.run`).  This holds of every command, whatever it asks of its target.

A scenario that has been loaded asks of a target only what the target has (`Scenario.isAllowed_of_load`).
-/

namespace Tandem

/-! ## Loaded scenarios -/

/-- Whether the target of a command has its action. -/
def CommandPayload.isAllowed : CommandPayload → Bool
  | act target a => a.allowedFor target
  | set .. => true

namespace Scenario

/-- A line asks of a target only what the target has. -/
theorem IsBody.isAllowed {fields : List String} {payload : CommandPayload} (h : IsBody fields payload) :
    payload.isAllowed = true := by
  cases h with
  | sessionAction _ allowed | taskAction _ allowed => exact allowed
  | sessionParameter | taskParameter | feedbackDuration => rfl

theorem isAllowed_of_parseLine {line index : Nat} {text : String} {c : ScenarioCommand}
    (h : parseLine line index text = .ok c) : c.payload.isAllowed = true := by
  obtain ⟨-, fields, time, body, -, -, -, -, parsed⟩ := parseLine_iff.mp h
  exact parsed.isAllowed

/-- In a scenario that has been loaded every target has the actions that are asked of it. -/
theorem isAllowed_of_load {policy : LoadPolicy} {known : ParameterCheck} {text : String}
    {commands : List ScenarioCommand} (h : load policy known text = .ok commands) :
    ∀ c ∈ commands, c.payload.isAllowed = true := by
  intro c mem
  obtain ⟨line, reading⟩ := exists_readsAs_of_load h c mem
  exact isAllowed_of_parseLine reading.1

end Scenario

/-! ## Abreast of the script -/

theorem TaskState.lightChange?_matching {s : TaskState} (task : s.task = .matching) (key : FieldKey)
    (value : FieldValue) (stamp : Stamp) : s.lightChange? key value stamp = none := by
  unfold lightChange?
  rw [task]
  rfl

namespace Battery

/-- A command opens a round, or leaves the rounds alone. -/
theorem scripted_rounds (b : Battery) (c : ScenarioCommand) :
    (∃ t, c.payload = .act (.task t) .newRound ∧
      b.scripted c = b.matching.newRound (b.store.read t) c.due c.stamp) ∨
      ((b.scripted c).1.round = b.matching.round ∧ (b.scripted c).1.archive = b.matching.archive) := by
  obtain ⟨dueSecond, priority, payload, line, index⟩ := c
  cases payload with
  | act target a =>
    cases target with
    | session => exact Or.inr ⟨rfl, rfl⟩
    | task t =>
      by_cases opens : a = .newRound
      · subst opens
        exact Or.inl ⟨t, rfl, rfl⟩
      · refine Or.inr ?_
        by_cases adds : a = .addObject
        · subst adds
          exact ⟨rfl, rfl⟩
        · rw [scripted_act _ _ _ _ _ _ ⟨adds, opens⟩]
          exact ⟨rfl, rfl⟩
  | set target key raw => cases target <;> exact Or.inr ⟨rfl, rfl⟩

/-- Two batteries on which the same commands have been run.  They differ in how rounds went, and in the fields that
show it. -/
structure Abreast (a b : Battery) : Prop where
  rounds : a.matching.Alike b.matching
  states : ∀ t, t ≠ .matching → a.store.read t = b.store.read t
  cells : ∀ key, key ∉ Coordinator.outcomeKeys → a.cell? .matching key = b.cell? .matching key
  tasks : ∀ t, (a.store.read t).task = t
  tasks' : ∀ t, (b.store.read t).task = t
  typed : a.Typed
  typed' : b.Typed

theorem abreast_new (capacity : Nat) (participants : ParticipantId × ParticipantId) :
    (Battery.new capacity participants).Abreast (.new capacity participants) where
  rounds := .refl _
  states _ _ := rfl
  cells _ _ := rfl
  tasks := task_read_new capacity participants
  tasks' := task_read_new capacity participants
  typed := typed_new capacity participants
  typed' := typed_new capacity participants

namespace Abreast

variable {a b : Battery}

theorem readKeys_eq (h : a.Abreast b) (t : TaskId) :
    ∀ key ∈ Coordinator.readKeys, (a.store.read t).cell? key = (b.store.read t).cell? key := by
  have unlisted : ∀ key ∈ Coordinator.readKeys, key ∉ Coordinator.outcomeKeys := by decide +kernel
  intro key mem
  by_cases here : t = .matching
  · subst here
    exact h.cells key (unlisted key mem)
  · rw [h.states t here]

/-- A parameter of the matching task is set to the same value on both: where the fields differ, they are of one
type. -/
theorem parameterValue?_eq (h : a.Abreast b) (key : FieldKey) (raw : String) :
    (a.store.read .matching).parameterValue? key raw = (b.store.read .matching).parameterValue? key raw := by
  by_cases listed : key ∈ Coordinator.outcomeKeys
  · have fields : ∀ key ∈ Coordinator.outcomeKeys, ∃ d ∈ TaskId.defaults .matching, d.1 = key := by decide +kernel
    obtain ⟨first, start⟩ := Option.isSome_iff_exists.mp (TaskState.isSome_cell?_initial (fields key listed))
    exact h.typed.parameterValue?_eq h.typed' start raw
  · have same : (a.store.read .matching).cell? key = (b.store.read .matching).cell? key := h.cells key listed
    rw [TaskState.parameterValue?, TaskState.parameterValue?, same]

theorem parameterChanges?_eq (h : a.Abreast b) (t : TaskId) (key : FieldKey) (raw : String) (stamp : Stamp) :
    (a.store.read t).parameterChanges? key raw stamp = (b.store.read t).parameterChanges? key raw stamp := by
  by_cases here : t = .matching
  · subst here
    refine TaskState.parameterChanges?_congr ((h.tasks _).trans (h.tasks' _).symm) (h.parameterValue?_eq _ raw) ?_
    intro k v
    rw [TaskState.lightChange?_matching (h.tasks _), TaskState.lightChange?_matching (h.tasks' _)]
  · rw [h.states t here]

/-- **A command does the same on both.** -/
theorem scripted (h : a.Abreast b) (c : ScenarioCommand) :
    (a.scripted c).1.Alike (b.scripted c).1 ∧ (a.scripted c).2 = (b.scripted c).2 := by
  obtain ⟨dueSecond, priority, payload, line, index⟩ := c
  cases payload with
  | act target action =>
    cases target with
    | session => exact ⟨h.rounds, rfl⟩
    | task t =>
      by_cases ordinary : action ≠ .addObject ∧ action ≠ .newRound
      · rw [scripted_act _ _ _ _ _ _ ordinary, scripted_act _ _ _ _ _ _ ordinary]
        exact ⟨h.rounds, rfl⟩
      · cases action with
        | addObject => exact h.rounds.addObject _ (Coordinator.addObject_congr (h.readKeys_eq t) _ _)
        | newRound =>
          exact h.rounds.newRound _ _ _ (Coordinator.nextRound_congr (h.readKeys_eq t) h.rounds.roundsOpened _)
        | _ => exact absurd ⟨nofun, nofun⟩ ordinary
  | set target key raw =>
    cases target with
    | session => exact ⟨h.rounds, rfl⟩
    | task t => exact ⟨h.rounds, congrArg (·.getD []) (h.parameterChanges?_eq t key raw _)⟩

theorem scriptedAt_eq (h : a.Abreast b) (c : ScenarioCommand) (t : TaskId) (key : FieldKey) :
    a.scriptedAt c t key = b.scriptedAt c t key := by
  rw [scriptedAt, scriptedAt, (h.scripted c).2]

/-- Running a command on both keeps them abreast. -/
theorem run (h : a.Abreast b) (c : ScenarioCommand) : (a.run c).1.Abreast (b.run c).1 where
  rounds := by
    rw [matching_run, matching_run]
    exact (h.scripted c).1
  states t elsewhere := by rw [read_run, read_run, h.states t elsewhere, (h.scripted c).2]
  cells key unlisted := by rw [cell?_run, cell?_run, h.cells key unlisted, h.scriptedAt_eq]
  tasks t := (task_read_run a c t).trans (h.tasks t)
  tasks' t := (task_read_run b c t).trans (h.tasks' t)
  typed := h.typed.run h.tasks c
  typed' := h.typed'.run h.tasks' c

end Abreast

end Battery

end Tandem
