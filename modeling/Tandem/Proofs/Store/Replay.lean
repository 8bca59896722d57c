import Tandem.Proofs.Scenario.Scripted
import Tandem.Reconciler
/-!
# Replaying what took effect

Of a mutation the journal notes the changes that took effect, not those that were attempted.  Nothing is lost by that:
a change without effect leaves the fields as they are, so that the changes that took effect do so again without the
others, each of them against the same cell (`TaskState.apply_applied`).  A batch without effect is not noted, and has
left no trace in the version of the task or in its last participant.

`Reproduces mutations tasks` says that the mutations, applied to a store at the start of a session, all take full
effect and lead to the tasks.  A store whose journal goes on from a past that reproduces it stays so under every
mutation (`Store.Told.apply`), and everything that happens to the tasks is at most one mutation
(`Store.Becomes`).
-/

namespace Tandem

/-! ## A batch and its applied changes -/

namespace TaskState

/-- The changes that a batch applies lead to the same fields on their own, and each of them is applied. -/
theorem foldl_absorb_applied (changes : List FieldChange) (fields : OrderedMap FieldKey Cell) (o o' : Outcome) :
    ∃ took : List FieldChange, (changes.foldl absorb (fields, o)).2.applied = took.reverse ++ o.applied ∧
      took.foldl absorb (fields, o') =
        ((changes.foldl absorb (fields, o)).1, ⟨took.reverse ++ o'.applied, o'.superseded⟩) := by
  induction changes generalizing fields o o' with
  | nil => exact ⟨[], rfl, rfl⟩
  | cons c rest ih =>
    cases written : write? fields c with
    | none =>
      have skipped : absorb (fields, o) c = (fields, { o with superseded := o.superseded + 1 }) := by
        simp only [absorb, written]
      obtain ⟨took, applied, replayed⟩ := ih fields { o with superseded := o.superseded + 1 } o'
      rw [List.foldl_cons, skipped]
      exact ⟨took, applied, replayed⟩
    | some after =>
      have took : ∀ o : Outcome, absorb (fields, o) c = (after, { o with applied := c :: o.applied }) := by
        intro o
        simp only [absorb, written]
      obtain ⟨later, applied, replayed⟩ :=
        ih after { o with applied := c :: o.applied } { o' with applied := c :: o'.applied }
      refine ⟨c :: later, ?_, ?_⟩
      · rw [List.foldl_cons, took, applied, List.reverse_cons, List.append_assoc]
        rfl
      · rw [List.foldl_cons, List.foldl_cons, took, took, replayed, List.reverse_cons, List.append_assoc]
        rfl

theorem writeAll_applied (fields : OrderedMap FieldKey Cell) (changes : List FieldChange) :
    writeAll fields (writeAll fields changes).2.applied =
      ((writeAll fields changes).1, ⟨(writeAll fields changes).2.applied, 0⟩) := by
  obtain ⟨took, applied, replayed⟩ := foldl_absorb_applied changes fields .nothing .nothing
  unfold writeAll
  generalize changes.foldl absorb (fields, .nothing) = after at applied replayed
  dsimp only at applied replayed ⊢
  have order : took.reverse ++ Outcome.nothing.applied = took.reverse := List.append_nil _
  rw [applied, order, List.reverse_reverse, replayed, order, List.reverse_reverse]
  rfl

/-- The changes of a batch that took effect do so again, and lead to the same state. -/
theorem apply_applied (s : TaskState) (origin : Origin) (changes : List FieldChange) :
    s.apply origin (s.apply origin changes).2.applied =
      ((s.apply origin changes).1, ⟨(s.apply origin changes).2.applied, 0⟩) := by
  have outcome : (s.apply origin changes).2 = (writeAll s.fields changes).2 := by
    unfold apply
    dsimp only
    split <;> rfl
  have again := writeAll_applied s.fields changes
  have alike : Outcome.isNoop ⟨(writeAll s.fields changes).2.applied, 0⟩ = (writeAll s.fields changes).2.isNoop := rfl
  rw [outcome]
  unfold apply
  rw [again]
  dsimp only
  rw [alike]
  cases (writeAll s.fields changes).2.isNoop <;> rfl

end TaskState

/-! ## Several mutations -/

/-- What a mutation comes to when all of its changes take effect. -/
def Mutation.fullEffect (m : Mutation) : Outcome := ⟨m.changes, 0⟩

/-- The mutation that a note tells of. -/
def Notification.mutation (n : Notification) : Mutation := ⟨n.task, n.origin, n.changes⟩

/-- Applies mutations in order, and collects their outcomes. -/
def Store.applyAll (s : Store) : List Mutation → Store × List Outcome
  | [] => (s, [])
  | m :: rest =>
    let (s, outcome) := s.apply m
    let (s, outcomes) := s.applyAll rest
    (s, outcome :: outcomes)

theorem Store.applyAll_append (s : Store) (first second : List Mutation) : s.applyAll (first ++ second) =
    (((s.applyAll first).1.applyAll second).1,
      (s.applyAll first).2 ++ ((s.applyAll first).1.applyAll second).2) := by
  induction first generalizing s with
  | nil => rfl
  | cons m rest ih => simp only [List.cons_append, applyAll, ih]

/-- Mutations that lead from the start of a session to these tasks, all of them with something to change and in full
effect. -/
structure Reproduces (mutations : List Mutation) (tasks : PerTask TaskState) : Prop where
  effective : ∀ m ∈ mutations, m.changes ≠ []
  outcomes : ∀ capacity, ((Store.new capacity).applyAll mutations).2 = mutations.map Mutation.fullEffect
  tasks_eq : ∀ capacity, ((Store.new capacity).applyAll mutations).1.tasks = tasks

theorem Reproduces.nil : Reproduces [] Store.initialTasks :=
  ⟨fun _ mem => absurd mem List.not_mem_nil, fun _ => rfl, fun _ => rfl⟩

/-- One more mutation that had an effect is reproduced by what took effect. -/
theorem Reproduces.apply {past : List Mutation} {s : Store} (h : Reproduces past s.tasks) (m : Mutation)
    (effective : (s.apply m).2.applied ≠ []) :
    Reproduces (past ++ [⟨m.task, m.origin, (s.apply m).2.applied⟩]) (s.apply m).1.tasks := by
  have same : ∀ capacity t, ((Store.new capacity).applyAll past).1.read t = s.read t := fun capacity t =>
    congrArg (PerTask.get · t) (h.tasks_eq capacity)
  have again := (s.read m.task).apply_applied m.origin m.changes
  refine ⟨?_, fun capacity => ?_, fun capacity => ?_⟩
  · intro n mem
    rcases List.mem_append.mp mem with before | last
    · exact h.effective n before
    · cases List.mem_singleton.mp last
      exact effective
  · have outcome := Store.outcome_apply ((Store.new capacity).applyAll past).1
      ⟨m.task, m.origin, (s.apply m).2.applied⟩
    dsimp only at outcome
    rw [same, Store.outcome_apply s m, again] at outcome
    rw [Store.applyAll_append, h.outcomes, List.map_append, Store.outcome_apply s m]
    exact congrArg (fun o => past.map Mutation.fullEffect ++ [o]) outcome
  · rw [Store.applyAll_append]
    refine PerTask.ext_get fun t => ?_
    show (((Store.new capacity).applyAll past).1.apply _).1.read t = (s.apply m).1.read t
    rw [Store.read_apply, Store.read_apply]
    dsimp only
    rw [same, same, Store.outcome_apply s m, again]

/-- A store whose journal goes on from a past. -/
def Store.Told (past : List Mutation) (s : Store) : Prop :=
  Reproduces (past ++ s.journal.toList.map Notification.mutation) s.tasks

/-- **Every mutation is told by what took effect.** -/
theorem Store.Told.apply {past : List Mutation} {s : Store} (h : s.Told past) (m : Mutation) :
    (s.apply m).1.Told past := by
  have more := Reproduces.apply h m
  unfold Store.Told Store.apply at *
  generalize (s.read m.task).apply m.origin m.changes = after at more
  obtain ⟨state, outcome⟩ := after
  dsimp only at more ⊢
  by_cases noop : outcome.isNoop = true
  · rw [if_pos noop]
    exact h
  · have effective : outcome.applied ≠ [] := fun nothing => noop (List.isEmpty_iff.mpr nothing)
    rw [if_neg noop] at more ⊢
    have journal : ∀ n, (s.push n).journal = s.journal := by
      intro n
      unfold Store.push
      split
      · rfl
      · split <;> rfl
    rw [journal, Fifo.toList_push, List.map_append, ← List.append_assoc]
    exact more effective

/-! ## What happens to the tasks -/

/-- A store that stays as it is, or takes one mutation. -/
def Store.Becomes (s s' : Store) : Prop := s' = s ∨ ∃ m, s' = (s.apply m).1

theorem Store.Told.becomes {past : List Mutation} {s s' : Store} (h : s.Told past) (becomes : s.Becomes s') :
    s'.Told past := by
  rcases becomes with rfl | ⟨m, rfl⟩
  · exact h
  · exact h.apply m

namespace Battery

/-- A command of the scenario is one mutation at most. -/
theorem becomes_run (b : Battery) (c : ScenarioCommand) : b.store.Becomes (b.run c).1.store := by
  rw [run_fst]
  split
  · exact Or.inr ⟨_, rfl⟩
  · exact Or.inl rfl

theorem becomes_expireRounds (b : Battery) (now : SessionTime) : b.store.Becomes (b.expireRounds now).1.store := by
  unfold expireRounds
  dsimp only
  split
  · exact Or.inl rfl
  · exact Or.inr ⟨_, rfl⟩

/-- So is an input. -/
theorem becomes_applyInput (b : Battery) (e : InputEvent) (stamp : Stamp) (origin : Origin) :
    b.store.Becomes (b.applyInput e stamp origin).1.store := by
  unfold applyInput
  split
  · exact Or.inl rfl
  · dsimp only
    split
    · exact Or.inl rfl
    · exact Or.inl rfl
    · exact Or.inr ⟨_, rfl⟩

end Battery

namespace Reconciler

theorem becomes_onLocalInput (r : Reconciler) (b : Battery) (e : InputEvent) (now : SessionTime) :
    b.store.Becomes (r.onLocalInput b e now).2.1.store := by
  have applied := b.becomes_applyInput e (r.clock.issue now).1 (.localInput e.origin)
  unfold onLocalInput
  dsimp only
  split
  · rename_i same
    rw [same] at applied
    exact applied
  · rename_i same
    rw [same] at applied
    split
    · exact applied
    · split <;> exact applied

/-- A message of the other peer is one mutation at most. -/
theorem becomes_onRemoteMessage (r : Reconciler) (b : Battery) (sender : ParticipantId) (m : SyncMessage) :
    b.store.Becomes (r.onRemoteMessage b sender m).2.1.store := by
  unfold onRemoteMessage
  split
  · exact Or.inl rfl
  · cases m with
    | forward e stamp =>
      have applied := b.becomes_applyInput e stamp (.remoteInput sender)
      dsimp only [onRemoteInput]
      split
      · exact Or.inl rfl
      · split
        · exact Or.inl rfl
        · split
          all_goals
            rename_i same
            rw [same] at applied
            exact applied
    | delta t changes => exact Or.inr ⟨⟨t, .remoteDelta sender, changes⟩, rfl⟩
    | heartbeat | hello | start | pause | resume | finish => exact Or.inl rfl

end Reconciler

end Tandem
