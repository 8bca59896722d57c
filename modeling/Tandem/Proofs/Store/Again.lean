import Tandem.Proofs.Store.LastWriter
/-!
# A batch that comes again

A change that has been written to a cell has nothing more to do to it: it is `Spent`, and stays so as long as no other
value is written under its stamp (`Spent.write`).  A spent change leaves the cell as it is.  Nevertheless it may count
as a change: a cell gives way to a change of its own stamp unless the values are equal, and what is not a number equals
nothing, not even itself (`Spent.admits_iff`).

A batch of which no change is admitted leaves the whole store as it is, and any other batch leaves a trace, in the
version of its task at least (`Store.apply_eq_self_iff`).
-/

namespace Tandem

/-! ## Values that equal themselves -/

/-- The value is not a number, or a coordinate of it is none. -/
def FieldValue.HasNaN : FieldValue → Prop
  | real x => x.isNaN = true
  | point x y => x.isNaN = true ∨ y.isNaN = true
  | _ => False

namespace FieldValue

theorem same_self_iff (v : FieldValue) : v.same v = true ↔ ¬ v.HasNaN := by
  cases v <;> simp [same, HasNaN, Binary64.same_self_iff]

/-- What is not a number equals nothing. -/
theorem not_hasNaN_of_same {v w : FieldValue} (h : v.same w = true) : ¬ v.HasNaN := by
  cases v <;> cases w <;> simp_all [same, HasNaN, Binary64.same]

end FieldValue

/-! ## Spent changes -/

/-- A change that has nothing more to do to a cell. -/
def Spent (cell : Option Cell) (c : FieldChange) : Prop := writeCell cell c = cell

variable {cell : Option Cell} {c d : FieldChange}

theorem writeCell_eq (cell : Option Cell) (c : FieldChange) :
    (TaskState.admits cell c = true ∧ writeCell cell c = some ⟨c.value, c.stamp⟩) ∨
      (TaskState.admits cell c = false ∧ writeCell cell c = cell) := by
  unfold writeCell
  cases TaskState.admits cell c with
  | true => exact Or.inl ⟨rfl, rfl⟩
  | false => exact Or.inr ⟨rfl, rfl⟩

/-- The cell that a change has made gives way to no other value of its stamp but its own. -/
theorem spent_made (c : FieldChange) : Spent (some ⟨c.value, c.stamp⟩) c :=
  (writeCell_eq (some ⟨c.value, c.stamp⟩) c).elim And.right And.right

/-- A change that has been written is spent, whether it took effect or not. -/
theorem spent_writeCell (cell : Option Cell) (c : FieldChange) : Spent (writeCell cell c) c := by
  rcases writeCell_eq cell c with ⟨-, made⟩ | ⟨-, stays⟩
  · rw [made]
    exact spent_made c
  · rw [stays]
    exact stays

/-- A spent change is stamped no higher than the cell. -/
theorem Spent.exists_le (h : Spent cell c) : ∃ held, cell = some held ∧ c.stamp ≤ held.stamp := by
  cases cell with
  | none => cases h
  | some held =>
    obtain ⟨after, written, -, reaches⟩ := exists_writeCell held c
    cases written.symm.trans h
    exact ⟨held, rfl, reaches⟩

/-- A spent change remains so unless another value is written under its stamp. -/
theorem Spent.write (h : Spent cell c) (one : d.stamp = c.stamp → d.value = c.value) :
    Spent (writeCell cell d) c := by
  obtain ⟨held, rfl, lower⟩ := h.exists_le
  obtain ⟨after, written, grown, -⟩ := exists_writeCell held d
  rcases writeCell_eq (some held) d with ⟨-, made⟩ | ⟨-, stays⟩
  · rw [made] at written ⊢
    cases written
    by_cases level : d.stamp = c.stamp
    · rw [level, one level]
      exact spent_made c
    · exact writeCell_below _ (Std.lt_of_le_of_ne (Std.le_trans lower grown) (Ne.symm level))
  · rw [stays]
    exact h

theorem Spent.foldl_writeCell {changes : List FieldChange} (h : Spent cell c)
    (one : ∀ d ∈ changes, d.stamp = c.stamp → d.value = c.value) : Spent (changes.foldl writeCell cell) c := by
  induction changes generalizing cell with
  | nil => exact h
  | cons d rest ih => exact ih (h.write (one d List.mem_cons_self)) fun d mem => one d (List.mem_cons_of_mem _ mem)

/-- Spent changes do nothing. -/
theorem foldl_writeCell_of_spent {changes : List FieldChange} (spent : ∀ d ∈ changes, Spent cell d) :
    changes.foldl writeCell cell = cell := by
  induction changes with
  | nil => rfl
  | cons d rest ih =>
    rw [List.foldl_cons, spent d List.mem_cons_self]
    exact ih fun d mem => spent d (List.mem_cons_of_mem _ mem)

/-- A spent change counts once more exactly if the cell has its stamp and its value is not a number. -/
theorem Spent.admits_iff (h : Spent cell c) : TaskState.admits cell c = true ↔
    ∃ held, cell = some held ∧ held.stamp = c.stamp ∧ c.value.HasNaN := by
  constructor
  · intro admitted
    rcases writeCell_eq cell c with ⟨-, made⟩ | ⟨refused, -⟩
    · -- The cell is what the change has made, and yet its value is not equal.
      cases h.symm.trans made
      refine ⟨_, rfl, rfl, Classical.not_not.mp fun number => ?_⟩
      simp [TaskState.admits, (FieldValue.same_self_iff c.value).mpr number] at admitted
    · rw [admitted] at refused
      cases refused
  · rintro ⟨held, rfl, level, noNumber⟩
    have differ : c.value.same held.value = false :=
      Bool.eq_false_iff.mpr fun same => FieldValue.not_hasNaN_of_same same noNumber
    simp [TaskState.admits, level, differ]

/-! ## Batches -/

namespace TaskState

theorem applied_foldl_absorb_sublist (changes : List FieldChange) (acc : OrderedMap FieldKey Cell × Outcome) :
    ∃ took : List FieldChange, took.Sublist changes ∧
      (changes.foldl absorb acc).2.applied = took.reverse ++ acc.2.applied := by
  induction changes generalizing acc with
  | nil => exact ⟨[], .slnil, rfl⟩
  | cons c rest ih =>
    obtain ⟨took, some, all⟩ := ih (absorb acc c)
    rw [List.foldl_cons, all]
    unfold absorb
    cases write? acc.1 c with
    | none => exact ⟨took, some.cons c, rfl⟩
    | some fields =>
      refine ⟨c :: took, some.cons_cons c, ?_⟩
      rw [List.reverse_cons, List.append_assoc]
      rfl

/-- Nothing takes effect but what is written, in the order in which it is written. -/
theorem applied_sublist (s : TaskState) (origin : Origin) (changes : List FieldChange) :
    (s.apply origin changes).2.applied.Sublist changes := by
  obtain ⟨took, some, all⟩ := applied_foldl_absorb_sublist changes (s.fields, .nothing)
  have applied : (s.apply origin changes).2.applied = (changes.foldl absorb (s.fields, .nothing)).2.applied.reverse := by
    unfold apply writeAll
    dsimp only
    split <;> rfl
  rw [applied, all, Outcome.nothing, List.append_nil, List.reverse_reverse]
  exact some

theorem foldl_absorb_noop_iff (changes : List FieldChange) (acc : OrderedMap FieldKey Cell × Outcome) :
    (changes.foldl absorb acc).2.applied = [] ↔
      acc.2.applied = [] ∧ ∀ c ∈ changes, admits (acc.1.get? c.key) c = false := by
  induction changes generalizing acc with
  | nil => simp
  | cons c rest ih =>
    rw [List.foldl_cons, ih]
    unfold absorb write?
    cases refused : admits (acc.1.get? c.key) c <;> simp [refused]

theorem isNoop_apply_iff (s : TaskState) (origin : Origin) (changes : List FieldChange) :
    (s.apply origin changes).2.isNoop = true ↔ ∀ c ∈ changes, admits (s.cell? c.key) c = false := by
  have nothing := foldl_absorb_noop_iff changes (s.fields, .nothing)
  have start : Outcome.nothing.applied = [] := rfl
  unfold apply writeAll
  dsimp only
  split
  · rename_i noop
    have applied : (changes.foldl absorb (s.fields, .nothing)).2.applied = [] := by
      simpa [Outcome.isNoop] using noop
    exact iff_of_true noop (nothing.mp applied).2
  · rename_i effective
    refine iff_of_false effective fun refused => effective ?_
    simpa [Outcome.isNoop] using nothing.mpr ⟨start, refused⟩

/-- A batch of which nothing is admitted leaves the task. -/
theorem apply_eq_self {s : TaskState} {changes : List FieldChange}
    (refused : ∀ c ∈ changes, admits (s.cell? c.key) c = false) (origin : Origin) : (s.apply origin changes).1 = s := by
  have noop := (s.isNoop_apply_iff origin changes).mpr refused
  unfold apply at noop ⊢
  dsimp only at noop ⊢
  split
  · rfl
  · rename_i effective
    rw [if_neg effective] at noop
    exact absurd noop effective

/-- A batch that takes effect leads to a new version. -/
theorem version_apply {s : TaskState} {origin : Origin} {changes : List FieldChange}
    (effective : (s.apply origin changes).2.isNoop = false) : (s.apply origin changes).1.version = s.version + 1 := by
  unfold apply at effective ⊢
  dsimp only at effective ⊢
  split
  · rename_i noop
    rw [if_pos noop, noop] at effective
    cases effective
  · rfl

end TaskState

/-- **A batch leaves no trace exactly if none of its changes is admitted.** -/
theorem Store.apply_eq_self_iff (s : Store) (m : Mutation) :
    (s.apply m).1 = s ↔ ∀ c ∈ m.changes, TaskState.admits ((s.read m.task).cell? c.key) c = false := by
  rw [← TaskState.isNoop_apply_iff _ m.origin]
  constructor
  · intro same
    -- Every trace begins with the version of the task.
    refine Classical.byContradiction fun effective => ?_
    have version := congrArg (fun s : Store => (s.read m.task).version) same
    rw [read_apply, if_pos rfl] at version
    unfold TaskState.apply at version effective
    dsimp only at version effective
    split at version
    · rename_i noop
      rw [if_pos noop] at effective
      exact effective noop
    · exact absurd version (Nat.succ_ne_self _)
  · intro noop
    unfold apply
    dsimp only
    exact congrArg Prod.fst (if_pos noop)

/-- A mutation without changes does nothing. -/
theorem Store.apply_nil (s : Store) (t : TaskId) (origin : Origin) : (s.apply ⟨t, origin, []⟩).1 = s :=
  (s.apply_eq_self_iff _).mpr fun _ mem => absurd mem List.not_mem_nil

theorem Battery.apply_eq_self_iff (b : Battery) (m : Mutation) :
    (b.apply m).1 = b ↔ ∀ c ∈ m.changes, TaskState.admits (b.cell? m.task c.key) c = false := by
  rw [show (∀ c ∈ m.changes, TaskState.admits (b.cell? m.task c.key) c = false) ↔ _ from
    (b.store.apply_eq_self_iff m).symm]
  constructor
  · exact fun same => congrArg Battery.store same
  · intro same
    show (⟨(b.store.apply m).1, b.matching⟩ : Battery) = b
    rw [same]

theorem Battery.applied_sublist (b : Battery) (m : Mutation) : (b.apply m).2.applied.Sublist m.changes := by
  show (b.store.apply m).2.applied.Sublist m.changes
  rw [Store.outcome_apply]
  exact TaskState.applied_sublist _ _ _

/-! ## Inputs -/

namespace Battery

theorem fst_apply_nil (b : Battery) (t : TaskId) (origin : Origin) : (b.apply ⟨t, origin, []⟩).1 = b :=
  congrArg (fun store => ({ b with store := store } : Battery)) (b.store.apply_nil t origin)

/-- An input that is taken goes to the coordinator and to the fields of its task. -/
theorem applyInput_fst (b : Battery) (e : InputEvent) (stamp : Stamp) (origin : Origin) :
    (b.applyInput e stamp origin).1 = if (b.store.read e.target).acceptsInput then
      ({ b with matching := (b.inputEffect e stamp).1 }.apply
        ⟨e.target, origin, (b.inputEffect e stamp).2.toOption.getD []⟩).1
    else b := by
  unfold applyInput
  cases (b.store.read e.target).acceptsInput with
  | false => rfl
  | true =>
    generalize b.inputEffect e stamp = effect
    obtain ⟨matching, fault | changes⟩ := effect
    · exact (fst_apply_nil _ _ _).symm
    · cases changes with
      | nil => exact (fst_apply_nil _ _ _).symm
      | cons => rfl

/-- **What an input writes** is one batch, of what it comes to or of nothing, and what takes effect is part of it. -/
theorem writes_applyInput (b : Battery) (e : InputEvent) (stamp : Stamp) (origin : Origin) :
    ∃ changes, changes.Sublist ((b.inputEffect e stamp).2.toOption.getD []) ∧
      (b.applyInput e stamp origin).1.store = (b.store.apply ⟨e.target, origin, changes⟩).1 ∧
      ∀ outcome, (b.applyInput e stamp origin).2 = .ok outcome → outcome.applied.Sublist changes := by
  have idle : ∀ {s : Store}, s = b.store → s = (b.store.apply ⟨e.target, origin, []⟩).1 := fun same =>
    same.trans (b.store.apply_nil e.target origin).symm
  unfold applyInput
  split
  · refine ⟨[], List.nil_sublist _, idle rfl, fun outcome same => ?_⟩
    cases same
    exact .slnil
  · dsimp only
    split
    · exact ⟨[], List.nil_sublist _, idle rfl, fun outcome same => by cases same⟩
    · refine ⟨[], List.nil_sublist _, idle rfl, fun outcome same => ?_⟩
      cases same
      exact .slnil
    · rename_i changes _ effect
      refine ⟨changes, ?_, rfl, fun outcome same => ?_⟩
      · rw [effect]
        exact List.Sublist.refl _
      · cases same
        exact applied_sublist _ _

/-- An input leaves every other task. -/
theorem read_applyInput_of_ne (b : Battery) {e : InputEvent} {t : TaskId} (other : e.target ≠ t) (stamp : Stamp)
    (origin : Origin) : (b.applyInput e stamp origin).1.store.read t = b.store.read t := by
  obtain ⟨changes, -, store, -⟩ := b.writes_applyInput e stamp origin
  rw [store, Store.read_apply, if_neg other]

theorem applied_applyInput (b : Battery) {e : InputEvent} {stamp : Stamp} {origin : Origin} {outcome : Outcome}
    (applied : (b.applyInput e stamp origin).2 = .ok outcome) :
    outcome.applied.Sublist ((b.inputEffect e stamp).2.toOption.getD []) := by
  obtain ⟨changes, part, -, effective⟩ := b.writes_applyInput e stamp origin
  exact (effective outcome applied).trans part

end Battery

end Tandem
