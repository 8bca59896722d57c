import Tandem.Battery
import Tandem.Proofs.Session.Stamps
/-!
# What a batch of changes does to one cell

A mutation is a batch of changes to a task, and every later argument is about one field at a time.  `writeCell` is
what a single change does to the cell of its field; the lemmas of this module reduce a whole battery to it.

* `Battery.cell?_apply`: a mutation changes a cell by its changes to that field, in order, and leaves the others.
* `TaskState.applied_of_above`: changes to different fields that are all stamped above what is there are applied
  without exception, so that the outcome is the batch itself.
-/

namespace Tandem

/-- A cell after a change to its field. -/
def writeCell (cell : Option Cell) (c : FieldChange) : Option Cell :=
  if TaskState.admits cell c then some ⟨c.value, c.stamp⟩ else cell

@[simp] theorem writeCell_none (c : FieldChange) : writeCell none c = some ⟨c.value, c.stamp⟩ := rfl

/-- A cell gives way to what is stamped above it. -/
theorem TaskState.admits_above {held : Cell} {c : FieldChange} (above : held.stamp < c.stamp) :
    admits (some held) c = true := by
  have upTo : held.stamp ≤ c.stamp := Std.le_of_lt above
  have other : c.stamp ≠ held.stamp := fun same => Std.lt_irrefl (same ▸ above)
  simp [admits, upTo, other]

/-- A change that is stamped above a cell replaces it. -/
theorem writeCell_above (held : Cell) {c : FieldChange} (above : held.stamp < c.stamp) :
    writeCell (some held) c = some ⟨c.value, c.stamp⟩ := by
  rw [writeCell, TaskState.admits_above above, if_pos rfl]

/-- A change that is stamped below a cell leaves it. -/
theorem writeCell_below (held : Cell) {c : FieldChange} (below : c.stamp < held.stamp) :
    writeCell (some held) c = some held := by
  have notUpTo : ¬ held.stamp ≤ c.stamp := fun h => h below
  simp [writeCell, TaskState.admits, notUpTo]

/-- A change with the stamp of a cell replaces it unless the values are equal. -/
theorem writeCell_level (held : Cell) {c : FieldChange} (level : c.stamp = held.stamp) :
    writeCell (some held) c = if c.value.same held.value then some held else some ⟨c.value, c.stamp⟩ := by
  cases same : c.value.same held.value <;> simp [writeCell, TaskState.admits, level, same]

/-- The changes of a mutation to one field of one task. -/
def Mutation.writesAt (m : Mutation) (t : TaskId) (key : FieldKey) : List FieldChange :=
  if m.task = t then m.changes.filter (fun c => c.key = key) else []

theorem Mutation.mem_writesAt {m : Mutation} {t : TaskId} {key : FieldKey} {c : FieldChange}
    (h : c ∈ m.writesAt t key) : m.task = t ∧ c ∈ m.changes ∧ c.key = key := by
  unfold writesAt at h
  split at h
  · rename_i here
    obtain ⟨mem, same⟩ := List.mem_filter.mp h
    exact ⟨here, mem, of_decide_eq_true same⟩
  · exact absurd h List.not_mem_nil

/-- The change of a batch to a field, if the batch has only one for each field. -/
def writeAt? (changes : List FieldChange) (key : FieldKey) : Option FieldChange :=
  changes.find? (fun c => c.key = key)

theorem mem_of_writeAt? {changes : List FieldChange} {key : FieldKey} {c : FieldChange}
    (h : writeAt? changes key = some c) : c ∈ changes ∧ c.key = key :=
  ⟨List.mem_of_find?_eq_some h, by simpa using List.find?_some h⟩

/-- A change of a batch with one change for each field is what the batch does to its field. -/
theorem writeAt?_of_mem {changes : List FieldChange} (apart : changes.Pairwise (fun c d => c.key ≠ d.key))
    {c : FieldChange} (mem : c ∈ changes) : writeAt? changes c.key = some c := by
  induction changes with
  | nil => exact absurd mem List.not_mem_nil
  | cons d rest ih =>
    obtain ⟨others, apart⟩ := List.pairwise_cons.mp apart
    rw [writeAt?]
    rcases List.mem_cons.mp mem with rfl | mem
    · exact List.find?_cons_of_pos (by simp)
    · rw [List.find?_cons_of_neg (by simpa using others c mem)]
      exact ih apart mem

/-- A batch with one change for each field does one thing to a cell or nothing. -/
theorem foldl_writeCell_of_apart {changes : List FieldChange} (apart : changes.Pairwise (fun c d => c.key ≠ d.key))
    (key : FieldKey) (cell : Option Cell) : (changes.filter (fun c => c.key = key)).foldl writeCell cell =
      (writeAt? changes key).elim cell (writeCell cell) := by
  induction changes with
  | nil => rfl
  | cons c rest ih =>
    obtain ⟨others, apart⟩ := List.pairwise_cons.mp apart
    by_cases here : c.key = key
    · -- No other change is to this field.
      have none : rest.filter (fun d => d.key = key) = [] := by
        rw [List.filter_eq_nil_iff]
        intro d mem same
        exact others d mem (here.trans (of_decide_eq_true same).symm)
      rw [List.filter_cons_of_pos (by simpa using here), none, writeAt?, List.find?_cons_of_pos (by simpa using here)]
      rfl
    · rw [List.filter_cons_of_neg (by simpa using here), ih apart, writeAt?, writeAt?,
        List.find?_cons_of_neg (by simpa using here)]

/-- The change of a mutation to one field of one task, if there is only one. -/
def Mutation.writeAt? (m : Mutation) (t : TaskId) (key : FieldKey) : Option FieldChange :=
  if m.task = t then Tandem.writeAt? m.changes key else none

/-- What is in a cell after a batch was there before or is in the batch. -/
theorem foldl_writeCell_origin {changes : List FieldChange} {before : Option Cell} {cell : Cell}
    (h : changes.foldl writeCell before = some cell) :
    before = some cell ∨ ∃ c ∈ changes, cell = ⟨c.value, c.stamp⟩ := by
  induction changes generalizing before with
  | nil => exact Or.inl h
  | cons c rest ih =>
    rcases ih h with first | ⟨d, mem, same⟩
    · unfold writeCell at first
      split at first
      · cases first
        exact Or.inr ⟨c, List.mem_cons_self, rfl⟩
      · exact Or.inl first
    · exact Or.inr ⟨d, List.mem_cons_of_mem c mem, same⟩

theorem isSome_foldl_writeCell (changes : List FieldChange) {before : Option Cell} (h : before.isSome = true) :
    (changes.foldl writeCell before).isSome = true := by
  induction changes generalizing before with
  | nil => exact h
  | cons c rest ih =>
    refine ih ?_
    unfold writeCell
    split
    · rfl
    · exact h

namespace TaskState

/-! ## One batch -/

variable {fields : OrderedMap FieldKey Cell} {outcome : Outcome}

theorem get?_absorb (acc : OrderedMap FieldKey Cell × Outcome) (c : FieldChange) (key : FieldKey) :
    (absorb acc c).1.get? key = if c.key = key then writeCell (acc.1.get? key) c else acc.1.get? key := by
  unfold absorb write? writeCell
  by_cases here : c.key = key
  · rw [if_pos here, here]
    cases admits (acc.1.get? key) c with
    | true => simp [OrderedMap.get?_insert]
    | false => rfl
  · rw [if_neg here]
    cases admits (acc.1.get? c.key) c with
    | true => simp [OrderedMap.get?_insert, here]
    | false => rfl

theorem get?_foldl_absorb (changes : List FieldChange) (acc : OrderedMap FieldKey Cell × Outcome)
    (key : FieldKey) : (changes.foldl absorb acc).1.get? key =
      (changes.filter (fun c => c.key = key)).foldl writeCell (acc.1.get? key) := by
  induction changes generalizing acc with
  | nil => rfl
  | cons c rest ih =>
    rw [List.foldl_cons, ih, get?_absorb]
    by_cases here : c.key = key
    · rw [if_pos here, List.filter_cons_of_pos (by simpa using here), List.foldl_cons]
    · rw [if_neg here, List.filter_cons_of_neg (by simpa using here)]

/-- A batch of which nothing is applied changes nothing. -/
theorem foldl_absorb_noop (changes : List FieldChange) (acc : OrderedMap FieldKey Cell × Outcome)
    (noop : (changes.foldl absorb acc).2.applied = []) :
    (changes.foldl absorb acc).1 = acc.1 ∧ acc.2.applied = [] := by
  induction changes generalizing acc with
  | nil => exact ⟨rfl, noop⟩
  | cons c rest ih =>
    obtain ⟨fields, applied⟩ := ih (absorb acc c) noop
    rw [List.foldl_cons, fields]
    unfold absorb at applied ⊢
    cases written : write? acc.1 c with
    | none =>
      rw [written] at applied
      exact ⟨rfl, applied⟩
    | some fields =>
      rw [written] at applied
      exact absurd applied (List.cons_ne_nil _ _)

theorem cell?_apply (s : TaskState) (origin : Origin) (changes : List FieldChange) (key : FieldKey) :
    (s.apply origin changes).1.cell? key =
      (changes.filter (fun c => c.key = key)).foldl writeCell (s.cell? key) := by
  have written := get?_foldl_absorb changes (s.fields, .nothing) key
  have quiet := foldl_absorb_noop changes (s.fields, .nothing)
  unfold apply writeAll
  generalize changes.foldl absorb (s.fields, .nothing) = after at written quiet
  obtain ⟨fields, outcome⟩ := after
  dsimp only at written quiet ⊢
  split
  · rename_i noop
    have nothing : outcome.applied = [] := by simpa [Outcome.isNoop] using noop
    rw [(quiet nothing).1] at written
    exact written
  · exact written

@[simp] theorem task_apply (s : TaskState) (origin : Origin) (changes : List FieldChange) :
    (s.apply origin changes).1.task = s.task := by
  unfold apply
  dsimp only
  split <;> rfl

/-- Changes to different fields that are stamped above the cells there are all applied. -/
theorem applied_foldl_absorb {changes : List FieldChange} (acc : OrderedMap FieldKey Cell × Outcome)
    (apart : changes.Pairwise (fun c d => c.key ≠ d.key))
    (above : ∀ c ∈ changes, ∀ held, acc.1.get? c.key = some held → held.stamp < c.stamp) :
    (changes.foldl absorb acc).2.applied = changes.reverse ++ acc.2.applied := by
  induction changes generalizing acc with
  | nil => rfl
  | cons c rest ih =>
    obtain ⟨others, apart⟩ := List.pairwise_cons.mp apart
    have admitted : admits (acc.1.get? c.key) c = true := by
      cases held : acc.1.get? c.key with
      | none => rfl
      | some cell => exact admits_above (above c List.mem_cons_self cell held)
    have here : absorb acc c = (acc.1.insert c.key ⟨c.value, c.stamp⟩,
        { acc.2 with applied := c :: acc.2.applied }) := by
      simp only [absorb, write?, admitted, if_true]
    have later : ∀ d ∈ rest, ∀ held, (absorb acc c).1.get? d.key = some held → held.stamp < d.stamp := by
      intro d mem held found
      rw [get?_absorb, if_neg (others d mem)] at found
      exact above d (List.mem_cons_of_mem c mem) held found
    rw [List.foldl_cons, ih (absorb acc c) apart later, here, List.reverse_cons, List.append_assoc]
    rfl

theorem applied_of_above (s : TaskState) (origin : Origin) {changes : List FieldChange}
    (apart : changes.Pairwise (fun c d => c.key ≠ d.key))
    (above : ∀ c ∈ changes, ∀ held, s.cell? c.key = some held → held.stamp < c.stamp) :
    (s.apply origin changes).2.applied = changes := by
  have all := applied_foldl_absorb (s.fields, .nothing) apart above
  unfold apply writeAll
  generalize changes.foldl absorb (s.fields, .nothing) = after at all
  obtain ⟨fields, outcome⟩ := after
  dsimp only at all ⊢
  rw [all]
  split <;> simp [Outcome.nothing]

end TaskState

/-! ## Stores and batteries -/

@[simp] theorem Store.tasks_push (s : Store) (n : Notification) : (s.push n).tasks = s.tasks := by
  unfold push
  split
  · rfl
  · split <;> rfl

/-- The outcome of a mutation depends on the state of its task only. -/
theorem Store.outcome_apply (s : Store) (m : Mutation) :
    (s.apply m).2 = ((s.read m.task).apply m.origin m.changes).2 := by
  unfold apply
  dsimp only
  split <;> rfl

theorem Store.read_apply (s : Store) (m : Mutation) (t : TaskId) :
    (s.apply m).1.read t = if m.task = t then ((s.read m.task).apply m.origin m.changes).1 else s.read t := by
  unfold apply
  dsimp only
  split
  · rename_i noop
    -- A state that is not written is the one that was read.
    have quiet : ((s.read m.task).apply m.origin m.changes).1 = s.read m.task := by
      unfold TaskState.apply at noop ⊢
      dsimp only at noop ⊢
      split
      · rfl
      · rename_i effective
        rw [if_neg effective] at noop
        exact absurd noop effective
    rw [quiet]
    by_cases here : m.task = t
    · rw [if_pos here, here]
    · rw [if_neg here]
  · simp only [read, PerTask.get_set, tasks_push]

/-- A mutation changes a cell by its changes to that field. -/
theorem Store.cell?_apply (s : Store) (m : Mutation) (t : TaskId) (key : FieldKey) :
    ((s.apply m).1.read t).cell? key = (m.writesAt t key).foldl writeCell ((s.read t).cell? key) := by
  rw [read_apply, Mutation.writesAt]
  by_cases here : m.task = t
  · rw [if_pos here, if_pos here, TaskState.cell?_apply, here]
  · rw [if_neg here, if_neg here]
    rfl

namespace Battery

variable {b : Battery}

/-- The cell of a field of a task. -/
def cell? (b : Battery) (t : TaskId) (key : FieldKey) : Option Cell := (b.store.read t).cell? key

/-- The changes of a batch to one field of one task. -/
theorem cell?_apply (b : Battery) (m : Mutation) (t : TaskId) (key : FieldKey) :
    (b.apply m).1.cell? t key = (m.writesAt t key).foldl writeCell (b.cell? t key) :=
  b.store.cell?_apply m t key

theorem cell?_apply_of_apart (b : Battery) {m : Mutation} (apart : m.changes.Pairwise (fun c d => c.key ≠ d.key))
    (t : TaskId) (key : FieldKey) : (b.apply m).1.cell? t key =
      (m.writeAt? t key).elim (b.cell? t key) (writeCell (b.cell? t key)) := by
  rw [cell?_apply, Mutation.writesAt, Mutation.writeAt?]
  by_cases here : m.task = t
  · rw [if_pos here, if_pos here, foldl_writeCell_of_apart apart]
  · rw [if_neg here, if_neg here]
    rfl

/-- Changes to different fields that are stamped above the cells there all take effect. -/
theorem applied_apply (b : Battery) {m : Mutation} (apart : m.changes.Pairwise (fun c d => c.key ≠ d.key))
    (above : ∀ c ∈ m.changes, ∀ held, b.cell? m.task c.key = some held → held.stamp < c.stamp) :
    (b.apply m).2.applied = m.changes := by
  have all := TaskState.applied_of_above (b.store.read m.task) m.origin apart above
  show (b.store.apply m).2.applied = m.changes
  unfold Store.apply
  dsimp only
  split <;> exact all

@[simp] theorem matching_apply (b : Battery) (m : Mutation) : (b.apply m).1.matching = b.matching := rfl

@[simp] theorem task_read_apply (b : Battery) (m : Mutation) (t : TaskId) :
    ((b.apply m).1.store.read t).task = (b.store.read t).task := by
  show ((b.store.apply m).1.read t).task = _
  rw [Store.read_apply]
  by_cases here : m.task = t
  · rw [if_pos here, TaskState.task_apply, here]
  · rw [if_neg here]

/-- Each task starts with the fields of its table. -/
theorem cell?_new (capacity : Nat) (participants : ParticipantId × ParticipantId) (t : TaskId) (key : FieldKey) :
    (Battery.new capacity participants).cell? t key = (TaskState.initial t).cell? key := by
  show ((Store.initialTasks.get t).cell? key) = _
  rw [Store.initialTasks, PerTask.get_ofFn]

@[simp] theorem task_read_new (capacity : Nat) (participants : ParticipantId × ParticipantId) (t : TaskId) :
    ((Battery.new capacity participants).store.read t).task = t := by
  show (Store.initialTasks.get t).task = t
  rw [Store.initialTasks, PerTask.get_ofFn]
  rfl

end Battery

/-! ## The cells a session starts with -/

theorem OrderedMap.get?_foldl_insert (l : List (FieldKey × Cell)) (m : OrderedMap FieldKey Cell) (key : FieldKey) :
    ((∃ e ∈ l, e.1 = key) ∨ (m.get? key).isSome = true →
        ((l.foldl (fun m e => m.insert e.1 e.2) m).get? key).isSome = true) ∧
      ∀ cell, (l.foldl (fun m e => m.insert e.1 e.2) m).get? key = some cell →
        (key, cell) ∈ l ∨ m.get? key = some cell := by
  induction l generalizing m with
  | nil => simp
  | cons e rest ih =>
    obtain ⟨held, origin⟩ := ih (m.insert e.1 e.2)
    rw [List.foldl_cons]
    refine ⟨fun h => held ?_, fun cell found => ?_⟩
    · rw [get?_insert]
      rcases h with ⟨d, mem, rfl⟩ | h
      · rcases List.mem_cons.mp mem with rfl | mem
        · exact Or.inr (by rw [if_pos rfl]; rfl)
        · exact Or.inl ⟨d, mem, rfl⟩
      · by_cases here : e.1 = key
        · exact Or.inr (by rw [if_pos here]; rfl)
        · exact Or.inr (by rw [if_neg here]; exact h)
    · rcases origin cell found with mem | before
      · exact Or.inl (List.mem_cons_of_mem e mem)
      · rw [get?_insert] at before
        by_cases here : e.1 = key
        · rw [if_pos here] at before
          cases before
          exact Or.inl (here ▸ List.mem_cons_self)
        · rw [if_neg here] at before
          exact Or.inr before

namespace TaskState

/-- A field of the table is there from the start. -/
theorem isSome_cell?_initial {t : TaskId} {key : FieldKey} (h : ∃ d ∈ t.defaults, d.1 = key) :
    ((initial t).cell? key).isSome = true := by
  obtain ⟨d, mem, same⟩ := h
  refine (OrderedMap.get?_foldl_insert _ .empty key).1 (Or.inl ⟨(d.1, ⟨d.2, .genesis⟩), ?_, same⟩)
  exact List.mem_map_of_mem mem

/-- What is there at the start stands in the table. -/
theorem mem_defaults_of_cell?_initial {t : TaskId} {key : FieldKey} {cell : Cell}
    (h : (initial t).cell? key = some cell) : (key, cell.value) ∈ t.defaults ∧ cell.stamp = .genesis := by
  rcases (OrderedMap.get?_foldl_insert _ .empty key).2 cell h with mem | found
  · obtain ⟨d, listed, same⟩ := List.mem_map.mp mem
    cases same
    exact ⟨listed, rfl⟩
  · cases found

end TaskState

end Tandem
