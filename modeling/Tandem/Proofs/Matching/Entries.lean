import Tandem.Proofs.Matching.SelectionStamps
/-!
# What inputs write, whatever the task

`InputWrites` lists the writes of the inputs outside the matching task.  The matching task has one more kind of write,
the status of a round that a selection completes, and its stamp may be that of an earlier selection.  `EntryWrites` is
what all inputs have in common: one write to each field, made by a participant, under the stamp of the input unless it
says that a round is completed.  So of two inputs with different stamps no two writes to a field have one stamp, unless
they write the same (`EntryWrites.value_eq`).
-/

namespace Tandem

/-- The stamp is that of a participant's write. -/
def Stamp.ByParticipant (s : Stamp) : Prop := s.writer ≠ .scenario

theorem Stamp.byParticipant_of {s : Stamp} {p : ParticipantId} (h : s.writer = .participant p) : s.ByParticipant := by
  intro byScript
  rw [h] at byScript
  cases byScript

/-- The writes of an input under a stamp. -/
structure EntryWrites (stamp : Stamp) (changes : List FieldChange) : Prop where
  apart : changes.Pairwise (fun c d => c.key ≠ d.key)
  writer : ∀ c ∈ changes, c.stamp.ByParticipant
  stamped : ∀ c ∈ changes, c.key ≠ "round-status" → c.stamp = stamp
  completed : ∀ c ∈ changes, c.key = "round-status" → c.value = .text RoundStatus.completed.label

namespace EntryWrites

variable {stamp stamp' : Stamp} {changes changes' : List FieldChange} {c d : FieldChange}

theorem nil : EntryWrites stamp [] :=
  ⟨.nil, fun _ mem => absurd mem List.not_mem_nil, fun _ mem => absurd mem List.not_mem_nil,
    fun _ mem => absurd mem List.not_mem_nil⟩

theorem sublist (h : EntryWrites stamp changes) (part : changes'.Sublist changes) : EntryWrites stamp changes' where
  apart := h.apart.sublist part
  writer c mem := h.writer c (part.subset mem)
  stamped c mem := h.stamped c (part.subset mem)
  completed c mem := h.completed c (part.subset mem)

/-- A single write, to another field than the status of a round. -/
theorem singleton (writer : c.stamp.ByParticipant) (other : c.key ≠ "round-status") : EntryWrites c.stamp [c] where
  apart := List.pairwise_singleton _ _
  writer _ mem := List.mem_singleton.mp mem ▸ writer
  stamped _ mem _ := List.mem_singleton.mp mem ▸ rfl
  completed _ mem status := absurd (List.mem_singleton.mp mem ▸ status) other

/-- **Two inputs with different stamps write the same or under different stamps.** -/
theorem value_eq (h : EntryWrites stamp changes) (h' : EntryWrites stamp' changes') (mem : c ∈ changes)
    (mem' : d ∈ changes') (key : d.key = c.key) (differ : c.stamp = stamp → c.stamp ≠ stamp')
    (level : d.stamp = c.stamp) : d.value = c.value := by
  by_cases status : c.key = "round-status"
  · rw [h.completed c mem status, h'.completed d mem' (key.trans status)]
  · have own' := h'.stamped d mem' (key ▸ status)
    exact absurd (level.symm.trans own') (differ (h.stamped c mem status))

end EntryWrites

/-! ## The writes of a selection and of the other inputs -/

theorem selectionKey_ne_status (p : ParticipantId) : Coordinator.selectionKey p ≠ "round-status" := by
  intro same
  have number := actionType?_selectionKey p
  rw [same] at number
  exact absurd number (by decide)

theorem centeringKey_ne_status (p : ParticipantId) : Coordinator.centeringKey p ≠ "round-status" := by
  intro same
  have letters := congrArg String.toList same
  simp [Coordinator.centeringKey, toString_string] at letters

theorem inputType?_status (t : TaskId) : inputType? t "round-status" = none := by
  cases t <;> decide +kernel

theorem InputWrites.entryWrites {stamp : Stamp} {payload : InputPayload} {changes : List FieldChange}
    (h : InputWrites stamp payload changes) (writer : stamp.ByParticipant) : EntryWrites stamp changes where
  apart := h.apart
  writer c mem := (h.stamp_eq mem).symm ▸ writer
  stamped c mem _ := h.stamp_eq mem
  completed c mem status := by
    obtain ⟨v, listed, -⟩ := h.inputType?_eq mem
    rw [status, inputType?_status] at listed
    cases listed

/-- A selection shows itself, and that it has completed the round if it has. -/
theorem Coordinator.Selects.entryWrites {c : Coordinator} {p : ParticipantId} {object : ObjectId} {stamp : Stamp}
    {out : Coordinator × Except Fault (List FieldChange)} (h : c.Selects p object stamp out)
    (selected : c.SelectedUnder Stamp.ByParticipant) (writer : stamp.ByParticipant) :
    EntryWrites stamp (out.2.toOption.getD []) := by
  have writers := (h.selectedUnder selected writer).2
  cases h with
  | refused | again => exact .nil
  | @taken r kind takes =>
    exact .singleton (c := selectionChange p ⟨object, kind, stamp⟩) writer (selectionKey_ne_status p)
  | @completed r kind takes =>
    have both : ∀ {d : FieldChange}, d ∈ [selectionChange p ⟨object, kind, stamp⟩,
        completedChange (r.taking p ⟨object, kind, stamp⟩)] →
          d = selectionChange p ⟨object, kind, stamp⟩ ∨ d = completedChange (r.taking p ⟨object, kind, stamp⟩) := by
      simp
    refine
      { apart := List.pairwise_pair.mpr (selectionKey_ne_status p)
        writer := writers
        stamped := fun d mem other => ?_
        completed := fun d mem status => ?_ }
    · rcases both mem with rfl | rfl
      · rfl
      · exact absurd rfl other
    · rcases both mem with rfl | rfl
      · exact absurd status (selectionKey_ne_status p)
      · rfl

namespace Battery

variable {b : Battery} {e : InputEvent} {stamp : Stamp}

theorem entryWrites_inputEffect (selected : b.matching.SelectedUnder Stamp.ByParticipant)
    (writer : stamp.ByParticipant) : EntryWrites stamp ((b.inputEffect e stamp).2.toOption.getD []) := by
  unfold inputEffect
  split
  · exact (b.matching.selects_select e.origin _ stamp).entryWrites selected writer
  · rename_i score _
    exact .singleton (c := ⟨Coordinator.centeringKey e.origin, .real score, stamp⟩) writer
      (centeringKey_ne_status e.origin)
  · exact ((b.store.read e.target).inputWrites e.payload stamp).entryWrites writer

/-- **What an input does to the store** is one batch of such writes, and what takes effect is part of it. -/
theorem exists_entryWrites (selected : b.matching.SelectedUnder Stamp.ByParticipant) (writer : stamp.ByParticipant)
    (e : InputEvent) (origin : Origin) : ∃ changes, EntryWrites stamp changes ∧
      (b.applyInput e stamp origin).1.store = (b.store.apply ⟨e.target, origin, changes⟩).1 ∧
      ∀ outcome, (b.applyInput e stamp origin).2 = .ok outcome → outcome.applied.Sublist changes := by
  obtain ⟨changes, part, store, applied⟩ := b.writes_applyInput e stamp origin
  exact ⟨changes, (entryWrites_inputEffect selected writer).sublist part, store, applied⟩

/-- When a round runs out, the script writes. -/
theorem exists_scriptWrites_expireRounds (b : Battery) (now : SessionTime) : ∃ changes : List FieldChange,
    (∀ c ∈ changes, c.stamp.writer = .scenario) ∧
      (b.expireRounds now).1.store = (b.store.apply ⟨.matching, .scenario, changes⟩).1 := by
  have writers : ∀ c ∈ (b.matching.tick now (b.store.read .matching)).2, c.stamp.writer = .scenario := by
    intro c mem
    rw [Coordinator.tick_eq] at mem
    split at mem
    · rename_i r _
      have both : c ∈ Coordinator.expiredChanges r (b.store.read .matching) := mem
      simp only [Coordinator.expiredChanges, List.mem_cons, List.not_mem_nil, or_false] at both
      rcases both with rfl | rfl <;> rfl
    · exact absurd mem List.not_mem_nil
  refine ⟨_, writers, ?_⟩
  unfold expireRounds
  dsimp only
  split
  · rename_i none
    rw [List.isEmpty_iff.mp none]
    exact (Store.apply_nil _ _ _).symm
  · rfl

end Battery

end Tandem
