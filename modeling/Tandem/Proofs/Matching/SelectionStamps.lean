import Tandem.Proofs.Matching.Rounds
import Tandem.Proofs.Scenario.Scripted
import Tandem.Proofs.Store.Again
import Tandem.Wire.Message
/-!
# How late an input writes

An input writes under its own stamp, with one exception: the selection that completes a round writes the status under
the later of the two selections, and that may be the other participant's.  So what is said of the stamps of an input's
writes has to be said of the selections of the pending round too (`Coordinator.SelectedUnder`): that they are bounded by
a time (`Coordinator.StampedBy`), or that participants made them.
-/

namespace Tandem

/-! ## The selections of the pending round -/

namespace Coordinator

/-- The selections of the pending round have stamps of a kind. -/
def SelectedUnder (c : Coordinator) (kind : Stamp → Prop) : Prop :=
  ∀ r, c.round = some r → ∀ p s, r.selections.get? p = some s → kind s.stamp

/-- The selections of the pending round are stamped by a time. -/
def StampedBy (c : Coordinator) (t : SessionTime) : Prop :=
  ∀ r, c.round = some r → ∀ p s, r.selections.get? p = some s → s.stamp.time ≤ t

variable {c : Coordinator} {kind : Stamp → Prop} {t t' : SessionTime}

theorem StampedBy.mono (h : c.StampedBy t) (le : t ≤ t') : c.StampedBy t' :=
  fun r pending p s stands => Std.le_trans (h r pending p s stands) le

theorem selectedUnder_of_none (none : c.round = none) : c.SelectedUnder kind := by
  intro r pending
  rw [none] at pending
  cases pending

theorem stampedBy_of_none (none : c.round = none) : c.StampedBy t :=
  show c.SelectedUnder fun s => s.time ≤ t from selectedUnder_of_none none

theorem SelectedUnder.checkScene (h : c.SelectedUnder kind) : c.checkScene.SelectedUnder kind := by
  intro r pending p s stands
  rw [round_checkScene] at pending
  obtain ⟨first, here, rfl⟩ := Option.map_eq_some_iff.mp pending
  exact h first here p s stands

/-- A new round has no selections. -/
theorem selectedUnder_newRound (s : TaskState) (due : SessionTime) (stamp : Stamp) :
    (c.newRound s due stamp).1.SelectedUnder kind := by
  intro r pending p sel stands
  rw [round_newRound] at pending
  cases pending
  simp [nextRound] at stands

theorem SelectedUnder.tick (h : c.SelectedUnder kind) (now : SessionTime) (s : TaskState) :
    (c.tick now s).1.SelectedUnder kind := by
  rw [tick_eq]
  split
  · exact selectedUnder_of_none (round_expirePending _)
  · exact h

/-- The changes of a selection have a stamp of a kind if its stamp has, and the selections before it had. -/
theorem Selects.selectedUnder {p : ParticipantId} {object : ObjectId} {stamp : Stamp}
    {out : Coordinator × Except Fault (List FieldChange)} (selects : c.Selects p object stamp out)
    (h : c.SelectedUnder kind) (here : kind stamp) :
    out.1.SelectedUnder kind ∧ ∀ d ∈ out.2.toOption.getD [], kind d.stamp := by
  -- The selection stands beside those that are already there.
  have taking : ∀ {r : MatchRound} {k : ObjectKind}, c.checkScene.Takes r p ⟨object, k, stamp⟩ →
      ∀ q s, (r.taking p ⟨object, k, stamp⟩).selections.get? q = some s → kind s.stamp := by
    intro r k takes q s stands
    rw [get?_taking] at stands
    split at stands
    · cases stands
      exact here
    · exact h.checkScene r takes.pending q s stands
  cases selects with
  | refused | again => exact ⟨h.checkScene, fun d mem => absurd mem List.not_mem_nil⟩
  | taken takes =>
    refine ⟨fun r pending => ?_, fun d mem => ?_⟩
    · cases pending
      exact taking takes
    · rw [List.mem_singleton.mp mem]
      exact here
  | @completed r k takes =>
    refine ⟨selectedUnder_of_none rfl, fun d (mem : d ∈ [_, _]) => ?_⟩
    simp only [List.mem_cons, List.not_mem_nil, or_false] at mem
    rcases mem with rfl | rfl
    · exact here
    · have stands := (get?_taking r p ⟨object, k, stamp⟩ p).trans (if_pos rfl)
      obtain ⟨-, q, s, last, same⟩ := MatchRound.latestSelection_eq stands stamp
      show kind (r.taking p ⟨object, k, stamp⟩).resolvedAt
      rw [same]
      exact taking takes q s last

end Coordinator

namespace Battery

variable {b : Battery} {kind : Stamp → Prop} {t : SessionTime}

theorem selectedUnder_run (h : b.matching.SelectedUnder kind) (c : ScenarioCommand) :
    (b.run c).1.matching.SelectedUnder kind := by
  rw [matching_run]
  unfold scripted
  split
  · exact h
  · exact Coordinator.selectedUnder_newRound _ _ _
  · exact h
  · exact h
  · exact h

theorem stampedBy_run (h : b.matching.StampedBy t) (c : ScenarioCommand) : (b.run c).1.matching.StampedBy t :=
  have selected : b.matching.SelectedUnder fun s => s.time ≤ t := h
  selectedUnder_run selected c

theorem selectedUnder_expireRounds (h : b.matching.SelectedUnder kind) (now : SessionTime) :
    (b.expireRounds now).1.matching.SelectedUnder kind := by
  unfold expireRounds
  dsimp only
  split
  · exact h.tick now _
  · exact h.tick now _

theorem stampedBy_expireRounds (h : b.matching.StampedBy t) (now : SessionTime) :
    (b.expireRounds now).1.matching.StampedBy t :=
  have selected : b.matching.SelectedUnder fun s => s.time ≤ t := h
  selectedUnder_expireRounds selected now

theorem selectedUnder_inputEffect (h : b.matching.SelectedUnder kind) {e : InputEvent} {stamp : Stamp}
    (here : kind stamp) : (b.inputEffect e stamp).1.SelectedUnder kind ∧
      ∀ d ∈ (b.inputEffect e stamp).2.toOption.getD [], kind d.stamp := by
  unfold inputEffect
  split
  · rename_i object _
    exact (b.matching.selects_select e.origin object stamp).selectedUnder h here
  · refine ⟨h, fun d mem => ?_⟩
    rw [List.mem_singleton.mp mem]
    exact here
  · refine ⟨h, fun d mem => ?_⟩
    rw [((b.store.read e.target).inputWrites e.payload stamp).stamp_eq mem]
    exact here

/-- **What an input writes** has a stamp of a kind if the input has, and the selections before it had. -/
theorem selectedUnder_applyInput (h : b.matching.SelectedUnder kind) {e : InputEvent} {stamp : Stamp}
    (here : kind stamp) (origin : Origin) : (b.applyInput e stamp origin).1.matching.SelectedUnder kind ∧
      ∀ outcome, (b.applyInput e stamp origin).2 = .ok outcome → ∀ d ∈ outcome.applied, kind d.stamp := by
  obtain ⟨matching, writes⟩ := selectedUnder_inputEffect h here
  constructor
  · rw [applyInput_fst]
    split
    · exact matching
    · exact h
  · exact fun outcome applied d mem => writes d ((b.applied_applyInput applied).subset mem)

/-- What an input writes is stamped by its time, as the selections before it were. -/
theorem stampedBy_applyInput (h : b.matching.StampedBy t) {e : InputEvent} {stamp : Stamp} (le : stamp.time ≤ t)
    (origin : Origin) : (b.applyInput e stamp origin).1.matching.StampedBy t ∧
      ∀ outcome, (b.applyInput e stamp origin).2 = .ok outcome → ∀ d ∈ outcome.applied, d.stamp.time ≤ t :=
  have selected : b.matching.SelectedUnder fun s => s.time ≤ t := h
  selectedUnder_applyInput selected le origin

end Battery

/-- The writes of a delta are no later than a time if its changes are not. -/
theorem SyncMessage.writeTime_delta {task : TaskId} {changes : List FieldChange} {t limit : SessionTime}
    (bounded : ∀ d ∈ changes, d.stamp.time ≤ limit) (h : (SyncMessage.delta task changes).writeTime? = some t) :
    t ≤ limit := by
  have fold : ∀ (rest : List FieldChange) (first : SessionTime), first ≤ limit → (∀ d ∈ rest, d.stamp.time ≤ limit) →
      rest.foldl (fun t d => t.latest d.stamp.time) first ≤ limit := by
    intro rest
    induction rest with
    | nil => exact fun first le _ => le
    | cons d rest ih =>
      intro first le bounded
      refine ih _ (SessionTime.latest_le le (bounded d List.mem_cons_self)) fun d' mem => ?_
      exact bounded d' (List.mem_cons_of_mem d mem)
  cases changes with
  | nil => cases h
  | cons c rest =>
    cases h
    exact fold rest _ (bounded c List.mem_cons_self) fun d mem => bounded d (List.mem_cons_of_mem c mem)

end Tandem
