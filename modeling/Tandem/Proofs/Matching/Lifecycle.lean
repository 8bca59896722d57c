import Tandem.Proofs.Matching.Rounds
/-!
# The life of a round

Whatever is asked of a coordinator, in whatever order and with whatever arguments, its rounds live alike: they are
numbered as they are opened, selections fall into their time and name what is in the scene, and they end in the archive
as their selections say, where nothing changes them.

`Coordinator.Orderly` is what holds between any two calls.  Looking the scene over, taking a selection and ending a
round keep what coordinators have in common (`Coordinator.Alike`), so what is said of numbers and of the scene is at
stake only where a round is opened and where an object is placed (`Orderly.of_alike`).
-/

namespace Tandem

namespace MatchRound

/-- Every selection falls into the time of the round. -/
def Timely (r : MatchRound) : Prop := ∀ p s, r.selections.get? p = some s → r.covers s.stamp = true

theorem Timely.taking {r : MatchRound} {p : ParticipantId} {s : Selection} (h : r.Timely)
    (covered : r.covers s.stamp = true) : (r.taking p s).Timely := by
  intro q t held
  rw [Coordinator.get?_taking] at held
  split at held
  · cases held
    exact covered
  · exact h q t held

theorem covers_iff (r : MatchRound) (s : Stamp) :
    r.covers s = true ↔ r.opened ≤ s.time ∧ s.time < r.deadline := by
  rw [covers, Bool.and_eq_true, decide_eq_true_eq, decide_eq_true_eq]

/-- Both participants have selected, and what they have selected is of the target kind, or of one kind if there is no
target. -/
def IsAgreed (r : MatchRound) (participants : ParticipantId × ParticipantId) : Prop :=
  ∃ s t, r.selections.get? participants.1 = some s ∧ r.selections.get? participants.2 = some t ∧
    match r.target with
    | some kind => s.kind = kind ∧ t.kind = kind
    | none => s.kind = t.kind

theorem isSatisfied_iff (r : MatchRound) (participants : ParticipantId × ParticipantId) :
    r.isSatisfied participants = true ↔ r.IsAgreed participants := by
  unfold isSatisfied IsAgreed
  cases left : r.selections.get? participants.1 with
  | none => simp
  | some s =>
    cases right : r.selections.get? participants.2 with
    | none => simp
    | some t =>
      cases target : r.target with
      | none => simp [satisfies]
      | some kind => simp [satisfies]

end MatchRound

namespace Coordinator

/-- What can be asked of a coordinator. -/
inductive Call where
  | newRound (s : TaskState) (due : SessionTime) (stamp : Stamp)
  | addObject (s : TaskState) (stamp : Stamp)
  | select (p : ParticipantId) (object : ObjectId) (stamp : Stamp)
  | tick (now : SessionTime) (s : TaskState)

/-- The coordinator after a call. -/
def call (c : Coordinator) : Call → Coordinator
  | .newRound s due stamp => (c.newRound s due stamp).1
  | .addObject s stamp => (c.addObject s stamp).1
  | .select p object stamp => (c.select p object stamp).1
  | .tick now s => (c.tick now s).1

/-- The coordinator after several calls. -/
def callAll (c : Coordinator) (calls : List Call) : Coordinator := calls.foldl call c

/-- What holds of a coordinator between any two calls. -/
structure Orderly (c : Coordinator) : Prop where
  /-- The archived rounds ended as their selections say, and the pending one has no reason to end. -/
  consistent : c.Consistent
  numbers : c.opened.map (·.number) = List.range' 1 c.roundsOpened
  timely : ∀ r ∈ c.rounds, r.Timely
  /-- What has been selected in the pending round is in the scene, which has only grown since. -/
  named : ∀ r, c.round = some r → ∀ p s, r.selections.get? p = some s → c.kindOf? s.object = some s.kind
  ids : c.scene.toList.map (·.id) = (List.range' 1 c.scene.size).map fun n => ⟨UInt32.ofNat n⟩
  next : c.nextObject = UInt32.ofNat (c.scene.size + 1)

theorem orderly_new (participants : ParticipantId × ParticipantId) : (new participants).Orderly where
  consistent := ⟨fun _ mem => absurd mem List.not_mem_nil, fun _ here => by cases here⟩
  numbers := rfl
  timely _ mem := absurd mem List.not_mem_nil
  named _ here := by cases here
  ids := rfl
  next := rfl

theorem kindOf?_congr {c d : Coordinator} (scene : c.scene = d.scene) (object : ObjectId) :
    c.kindOf? object = d.kindOf? object := by
  rw [kindOf?, kindOf?, scene]

namespace Orderly

variable {c d : Coordinator}

/-- What does not touch the scene, and opens no round, has to look after the rounds only. -/
theorem of_alike (h : c.Orderly) (alike : c.Alike d) (consistent : d.Consistent) (timely : ∀ r ∈ d.rounds, r.Timely)
    (named : ∀ r, d.round = some r → ∀ p s, r.selections.get? p = some s → c.kindOf? s.object = some s.kind) :
    d.Orderly where
  consistent := consistent
  numbers := alike.opened ▸ alike.roundsOpened ▸ h.numbers
  timely := timely
  named r here p s held := (kindOf?_congr alike.scene _).symm.trans (named r here p s held)
  ids := alike.scene ▸ h.ids
  next := alike.nextObject ▸ alike.scene ▸ h.next

theorem archived_timely (h : c.Orderly) : ∀ r ∈ c.archive.toList, r.Timely :=
  fun r mem => h.timely r (List.mem_append_left _ mem)

theorem round_timely (h : c.Orderly) {r : MatchRound} (here : c.round = some r) : r.Timely :=
  h.timely r (List.mem_append_right _ (Option.mem_toList.mpr here))

theorem checkScene (h : c.Orderly) : c.checkScene.Orderly := by
  refine h.of_alike c.alike_checkScene h.consistent.checkScene ?_ ?_
  · intro r mem
    rw [rounds, archive_checkScene, round_checkScene, List.mem_append, Option.mem_toList] at mem
    rcases mem with old | here
    · exact h.archived_timely r old
    · obtain ⟨r, pending, rfl⟩ := Option.map_eq_some_iff.mp here
      exact fun p s held => h.round_timely pending p s held
  · intro r here
    rw [round_checkScene] at here
    obtain ⟨r, pending, rfl⟩ := Option.map_eq_some_iff.mp here
    exact h.named r pending

theorem expirePending (h : c.Orderly) : c.expirePending.Orderly := by
  refine h.of_alike c.expirePending_spec.1 h.consistent.expirePending ?_ ?_
  · intro r mem
    rw [rounds, archive_expirePending, round_expirePending, Option.toList_none, List.append_nil,
      List.mem_append] at mem
    rcases mem with old | ended
    · exact h.archived_timely r old
    · obtain ⟨r, pending, rfl⟩ := List.mem_map.mp ended
      exact fun p s held => h.round_timely (Option.mem_toList.mp pending) p s held
  · intro r here
    rw [round_expirePending] at here
    cases here

theorem tick (h : c.Orderly) (now : SessionTime) (s : TaskState) : (c.tick now s).1.Orderly := by
  rw [tick_eq]
  split
  · exact h.checkScene.expirePending
  · exact h

theorem newRound (h : c.Orderly) (s : TaskState) (due : SessionTime) (stamp : Stamp) :
    (c.newRound s due stamp).1.Orderly where
  consistent := h.consistent.newRound s due stamp
  numbers := by
    have opened := (c.rounds_newRound s due stamp).1
    have count : (c.newRound s due stamp).1.roundsOpened = c.roundsOpened + 1 := by
      rw [newRound_eq]
      rfl
    have number : (c.nextRound s due).number = 1 + c.roundsOpened := Nat.add_comm _ _
    rw [opened, count, List.map_append, h.numbers, List.range'_1_concat, List.map_singleton, number]
  timely := by
    intro r mem
    rw [rounds, archive_newRound, round_newRound, List.mem_append, Option.mem_toList] at mem
    rcases mem with old | here
    · exact h.expirePending.archived_timely r old
    · cases here
      exact fun p t held => by cases held
  named := by
    intro r here p t held
    rw [round_newRound] at here
    cases here
    cases held
  ids := rfl
  next := rfl

theorem addObject (h : c.Orderly) (s : TaskState) (stamp : Stamp) : (c.addObject s stamp).1.Orderly where
  consistent := ⟨h.consistent.archived, h.consistent.pending⟩
  numbers := h.numbers
  timely := h.timely
  named := by
    intro r here p t held
    have found := h.named r here p t held
    obtain ⟨o, first, kind⟩ := Option.map_eq_some_iff.mp found
    unfold kindOf? Coordinator.addObject
    dsimp only
    rw [Fifo.toList_push, List.find?_append, first]
    exact congrArg some kind
  ids := by
    unfold Coordinator.addObject
    dsimp only
    rw [Fifo.toList_push, List.map_append, h.ids]
    show _ ++ [(⟨c.nextObject⟩ : ObjectId)] = (List.range' 1 (c.scene.size + 1)).map _
    rw [List.range'_1_concat, List.map_append, h.next, Nat.add_comm]
    rfl
  next := by
    show c.nextObject + 1 = UInt32.ofNat (c.scene.size + 1 + 1)
    rw [h.next]
    exact (UInt32.ofNat_add (c.scene.size + 1) 1).symm

end Orderly

theorem Selects.orderly {c : Coordinator} {p : ParticipantId} {object : ObjectId} {stamp : Stamp}
    {out : Coordinator × Except Fault (List FieldChange)} (h : c.Selects p object stamp out) (orderly : c.Orderly) :
    out.1.Orderly := by
  have consistent := h.consistent orderly.consistent
  have alike := h.alike
  have checked := orderly.checkScene
  -- A selection that is taken falls into the time of the round and names an object of the scene.
  have named : ∀ {r : MatchRound} {kind : ObjectKind}, c.checkScene.Takes r p ⟨object, kind, stamp⟩ →
      ∀ q s, (r.taking p ⟨object, kind, stamp⟩).selections.get? q = some s → c.kindOf? s.object = some s.kind := by
    intro r kind takes q s held
    rw [kindOf?_congr c.alike_checkScene.scene]
    rw [get?_taking] at held
    split at held
    · cases held
      exact takes.kind
    · exact checked.named r takes.pending q s held
  cases h with
  | refused | again => exact checked
  | taken takes =>
    refine orderly.of_alike alike consistent ?_ ?_
    · intro r' mem
      rw [rounds, List.mem_append, Option.mem_toList] at mem
      rcases mem with old | here
      · exact checked.archived_timely r' old
      · cases here
        exact (checked.round_timely takes.pending).taking takes.covered
    · intro r' here
      cases here
      exact named takes
  | completed takes =>
    refine orderly.of_alike alike consistent ?_ ?_
    · intro r' mem
      rw [rounds_resolve, List.mem_append, List.mem_singleton] at mem
      rcases mem with old | rfl
      · exact checked.archived_timely r' old
      · exact (checked.round_timely takes.pending).taking takes.covered
    · intro r' here
      cases here

theorem Orderly.call {c : Coordinator} (h : c.Orderly) (step : Call) : (c.call step).Orderly := by
  cases step with
  | newRound s due stamp => exact h.newRound s due stamp
  | addObject s stamp => exact h.addObject s stamp
  | select p object stamp => exact (c.selects_select p object stamp).orderly h
  | tick now s => exact h.tick now s

theorem Orderly.callAll {c : Coordinator} (h : c.Orderly) (calls : List Call) : (c.callAll calls).Orderly := by
  induction calls generalizing c with
  | nil => exact h
  | cons step rest ih => exact ih (h.call step)

/-! ## What is archived stays -/

theorem participants_callAll (c : Coordinator) (calls : List Call) :
    (c.callAll calls).participants = c.participants := by
  have one : ∀ (c : Coordinator) (step : Call), (c.call step).participants = c.participants := by
    intro c step
    cases step with
    | newRound s due stamp => exact c.participants_newRound s due stamp
    | addObject s stamp => rfl
    | select p object stamp => exact (c.selects_select p object stamp).alike.participants.symm
    | tick now s =>
      show (c.tick now s).1.participants = c.participants
      rw [tick_eq]
      split
      · exact c.checkScene.participants_expirePending.trans c.participants_checkScene
      · rfl
  induction calls generalizing c with
  | nil => rfl
  | cons step rest ih => exact (ih (c.call step)).trans (one c step)

/-- The archive has the first numbers, and the pending round the next one. -/
theorem Orderly.numbers_split {c : Coordinator} (h : c.Orderly) :
    c.archive.toList.map (·.number) = List.range' 1 c.archive.size ∧
      ∀ r, c.round = some r → r.number = c.archive.size + 1 := by
  have numbers := h.numbers
  have count := congrArg List.length numbers
  have archived : (c.archive.toList.map MatchRound.asOpened).map (·.number) = c.archive.toList.map (·.number) := by
    rw [List.map_map]
    rfl
  rw [opened_eq, List.map_append, archived] at numbers
  rw [List.length_range', List.length_map, opened_eq, List.length_append, List.length_map, List.length_map,
    ← Fifo.size_eq_length] at count
  cases pending : c.round with
  | none =>
    rw [pending] at numbers count
    rw [← count] at numbers
    exact ⟨(List.append_nil _).symm.trans numbers, fun r here => by cases here⟩
  | some r =>
    rw [pending] at numbers count
    rw [← count] at numbers
    obtain ⟨before, last⟩ := List.append_inj' (numbers.trans List.range'_1_concat) rfl
    refine ⟨before, fun r' here => ?_⟩
    cases here
    exact (List.head_eq_of_cons_eq last).trans (Nat.add_comm _ _)

end Coordinator

end Tandem
