import Tandem.Proofs.Matching.Entries
import Tandem.Proofs.Matching.Lifecycle
import Tandem.Proofs.Matching.RanOut
import Tandem.Proofs.Store.Again
import Tandem.Proofs.Task.Counters
/-!
# What the fields show of the latest round

The matching task shows its participants how the latest round stands: its number and status, how many objects are in the
scene, and who has selected what.  The coordinator knows the same.  It takes what happens in the order in which it comes
to it, while a field gives way to what is stamped above it.  `Battery.Mirrors` says that the two agree.

For this to remain so, what comes to a battery must not be behind what has come before it:

* a round is opened when the one before it has no selection of that time or later and has not run out later
  (`MatchRound.PastBy`);
* what the other peer says of these fields is known to the coordinator, or is from before the latest round
  (`Coordinator.Knows`).

Everything else that the coordinator takes is stamped no lower than what the fields show of it.  So the invariant has the
stamps of the fields besides their values (`Coordinator.ShownIn`): a field that tells how a round came to stand as it does
has the stamp of what brought it about.
-/

namespace Tandem

/-! ## Stamps and cells -/

/-- A scripted write is stamped no higher than any other write of its time or later. -/
theorem Stamp.scripted_le {t : SessionTime} {s : Stamp} (h : t ≤ s.time) : scripted t ≤ s := by
  rintro (earlier | ⟨-, lower | ⟨-, lower⟩⟩)
  · exact Std.lt_irrefl (Std.lt_of_lt_of_le earlier h)
  · exact absurd lower UInt32.not_lt_zero
  · exact Nat.not_lt_zero _ lower

theorem Stamp.lt_of_time {s s' : Stamp} (h : s.time < s'.time) : s < s' := Or.inl h

/-- A cell that is stamped up to a stamp, if it is there. -/
def StampedUpTo (cell : Option Cell) (s : Stamp) : Prop := ∀ held, cell = some held → held.stamp ≤ s

/-- A value that equals no other one. -/
def FieldValue.Plain (v : FieldValue) : Prop := ∀ w : FieldValue, v.same w = true → w = v

theorem FieldValue.plain_int (n : Int64) : (int n).Plain := by
  intro w same
  cases w with
  | int m => exact congrArg int (of_decide_eq_true same).symm
  | _ => cases same

theorem FieldValue.plain_text (s : String) : (text s).Plain := by
  intro w same
  cases w with
  | text t => exact congrArg text (of_decide_eq_true same).symm
  | _ => cases same

/-- What is not behind a cell is what the cell holds afterwards. -/
theorem writeCell_upTo {cell : Option Cell} {c : FieldChange} (upTo : StampedUpTo cell c.stamp) (plain : c.value.Plain) :
    writeCell cell c = some ⟨c.value, c.stamp⟩ := by
  cases cell with
  | none => rfl
  | some held =>
    by_cases level : held.stamp = c.stamp
    · rw [writeCell_level held level.symm]
      split
      · rename_i same
        rw [← plain _ same, ← level]
      · rfl
    · exact writeCell_above held (Std.lt_of_le_of_ne (upTo held rfl) level)

/-- The fields of a task after a batch of changes. -/
def writtenBy (changes : List FieldChange) (cells : FieldKey → Option Cell) (key : FieldKey) : Option Cell :=
  (changes.filter (fun c => c.key = key)).foldl writeCell (cells key)

section writtenBy

variable {changes : List FieldChange} {cells : FieldKey → Option Cell} {key : FieldKey}

theorem writtenBy_of_other (other : ∀ c ∈ changes, c.key ≠ key) : writtenBy changes cells key = cells key := by
  have none : changes.filter (fun c => c.key = key) = [] :=
    List.filter_eq_nil_iff.mpr fun c mem same => other c mem (of_decide_eq_true same)
  rw [writtenBy, none]
  rfl

/-- Where a batch writes one thing to a field, and is not behind it, that is what the field shows. -/
theorem writtenBy_upTo {v : FieldValue} {s : Stamp} (upTo : StampedUpTo (cells key) s) (plain : v.Plain)
    (written : ⟨key, v, s⟩ ∈ changes) (one : ∀ c ∈ changes, c.key = key → c = ⟨key, v, s⟩) :
    writtenBy changes cells key = some ⟨v, s⟩ := by
  have mem : ⟨key, v, s⟩ ∈ changes.filter (fun c => c.key = key) :=
    List.mem_filter.mpr ⟨written, decide_eq_true rfl⟩
  have all : ∀ c ∈ changes.filter (fun c => c.key = key), c = ⟨key, v, s⟩ := fun c mem =>
    one c (List.mem_filter.mp mem).1 (of_decide_eq_true (List.mem_filter.mp mem).2)
  unfold writtenBy
  cases found : changes.filter (fun c => c.key = key) with
  | nil =>
    rw [found] at mem
    exact absurd mem List.not_mem_nil
  | cons c rest =>
    rw [found] at all
    have first : writeCell (cells key) c = some ⟨v, s⟩ := by
      rw [all c List.mem_cons_self]
      exact writeCell_upTo upTo plain
    rw [List.foldl_cons, first]
    refine foldl_writeCell_of_spent fun d later => ?_
    rw [all d (List.mem_cons_of_mem c later)]
    exact spent_made ⟨key, v, s⟩

theorem writtenBy_cons (c : FieldChange) (changes : List FieldChange) (cells : FieldKey → Option Cell) :
    writtenBy (c :: changes) cells = writtenBy changes (writtenBy [c] cells) := by
  funext key
  by_cases here : c.key = key <;> simp [writtenBy, here]

theorem writtenBy_of_spent (spent : ∀ c ∈ changes, c.key = key → Spent (cells key) c) :
    writtenBy changes cells key = cells key :=
  foldl_writeCell_of_spent fun c mem =>
    spent c (List.mem_filter.mp mem).1 (of_decide_eq_true (List.mem_filter.mp mem).2)

end writtenBy

/-! ## What a round is shown as -/

namespace MatchRound

variable {r : MatchRound} {p : ParticipantId}

/-- The stamp of what has brought a round to its status. -/
def statusStamp (r : MatchRound) : Stamp :=
  match r.status with
  | .pending => .scripted r.opened
  | .completed => r.resolvedAt
  | .expired => r.timeout

def statusCell (r : MatchRound) : Cell := ⟨.text r.status.label, r.statusStamp⟩

def numberCell (r : MatchRound) : Cell := ⟨.int (Int64.ofNat r.number), .scripted r.opened⟩

/-- What is shown of a participant's selection. -/
def selectionCell (r : MatchRound) (p : ParticipantId) : Cell :=
  match r.selections.get? p with
  | some s => ⟨.int (Int64.ofNat s.object.id.toNat), s.stamp⟩
  | none => ⟨.int (-1), .scripted r.opened⟩

theorem statusCell_pending (h : r.status = .pending) :
    r.statusCell = ⟨.text RoundStatus.pending.label, .scripted r.opened⟩ := by
  unfold statusCell statusStamp
  rw [h]

theorem selectionCell_taking (r : MatchRound) (p : ParticipantId) (s : Selection) (q : ParticipantId) :
    (r.taking p s).selectionCell q =
      if p = q then ⟨.int (Int64.ofNat s.object.id.toNat), s.stamp⟩ else r.selectionCell q := by
  unfold selectionCell
  rw [Coordinator.get?_taking]
  by_cases own : p = q
  · rw [if_pos own, if_pos own]
  · rw [if_neg own, if_neg own]
    rfl

/-- Nothing has been selected in a round at a time or later, and it has not run out later. -/
structure PastBy (r : MatchRound) (due : SessionTime) : Prop where
  selected : ∀ e ∈ r.selections.entries, e.2.stamp.time < due
  ranOut : r.status = .expired → r.deadline ≤ due

instance (r : MatchRound) (due : SessionTime) : Decidable (r.PastBy due) :=
  decidable_of_iff ((∀ e ∈ r.selections.entries, e.2.stamp.time < due) ∧ (r.status = .expired → r.deadline ≤ due))
    ⟨fun h => ⟨h.1, h.2⟩, fun h => ⟨h.selected, h.ranOut⟩⟩

theorem PastBy.selectionCell {due : SessionTime} (h : r.PastBy due) (opened : r.opened ≤ due) (p : ParticipantId) :
    (r.selectionCell p).stamp ≤ .scripted due := by
  unfold MatchRound.selectionCell
  cases held : r.selections.get? p with
  | none => exact Stamp.scripted_le opened
  | some s =>
    exact Std.le_of_lt (Stamp.lt_of_time (h.selected _ ((OrderedMap.get?_eq_some_iff _ _ _).mp held)))

theorem PastBy.statusCell {due : SessionTime} (h : r.PastBy due) (opened : r.opened ≤ due)
    (completed : r.status = .completed → ∃ p s, r.selections.get? p = some s) :
    r.statusCell.stamp ≤ .scripted due := by
  show r.statusStamp ≤ .scripted due
  unfold statusStamp
  cases status : r.status with
  | pending => exact Stamp.scripted_le opened
  | expired => exact Stamp.scripted_le (h.ranOut status)
  | completed =>
    -- The stamp is that of a selection.
    obtain ⟨p, s, held⟩ := completed status
    obtain ⟨-, q, t, held', same⟩ := latestSelection_eq held .genesis
    dsimp only
    rw [same]
    exact Std.le_of_lt (Stamp.lt_of_time (h.selected _ ((OrderedMap.get?_eq_some_iff _ _ _).mp held')))

end MatchRound

namespace Coordinator

/-! ## The fields that show it -/

theorem begins_selectionKey (p : ParticipantId) : FieldKey.begins (selectionKey p) "selection-" = true := by
  simp [FieldKey.begins, selectionKey, toString_string]

theorem begins_centeringKey (p : ParticipantId) : FieldKey.begins (centeringKey p) "centering-" = true := by
  simp [FieldKey.begins, centeringKey, toString_string]

theorem selectionKey_ne (p : ParticipantId) {key : FieldKey} (other : FieldKey.begins key "selection-" = false) :
    selectionKey p ≠ key := by
  rintro rfl
  rw [begins_selectionKey] at other
  cases other

theorem selectionKey_inj {p q : ParticipantId} (same : selectionKey p = selectionKey q) : p = q := by
  have letters := congrArg String.toList same
  unfold selectionKey ParticipantId.label at letters
  exact ParticipantId.eq_of_toDigits (by simpa [toString_string] using letters)

/-- The fields that show the latest round to two participants. -/
def shownKeys (participants : ParticipantId × ParticipantId) : List FieldKey :=
  ["round-status", "round-number", "objectcount", selectionKey participants.1, selectionKey participants.2]

theorem not_mem_shownKeys {participants : ParticipantId × ParticipantId} {key : FieldKey}
    (plain : key ∉ ["round-status", "round-number", "objectcount"])
    (other : FieldKey.begins key "selection-" = false) : key ∉ shownKeys participants := by
  have differ : ∀ p, key ≠ selectionKey p := fun p => (selectionKey_ne p other).symm
  simpa [shownKeys, differ] using plain

theorem centeringKey_not_mem_shownKeys {participants : ParticipantId × ParticipantId} (p : ParticipantId) :
    centeringKey p ∉ shownKeys participants := by
  refine not_mem_shownKeys (fun listed => ?_) ?_
  · have table : ∀ key ∈ ["round-status", "round-number", "objectcount"], FieldKey.begins key "centering-" = false := by
      decide
    have begins := table _ listed
    rw [begins_centeringKey] at begins
    cases begins
  · simp [FieldKey.begins, centeringKey, toString_string, List.isPrefixOf]

/-- The round that was opened last. -/
def latest? (c : Coordinator) : Option MatchRound := c.rounds.getLast?

section latest

variable {c : Coordinator} {r : MatchRound}

theorem latest?_pending (h : c.round = some r) : c.latest? = some r := by
  rw [latest?, rounds, h]
  exact List.getLast?_concat

theorem latest?_resolve (c : Coordinator) (r : MatchRound) (status : RoundStatus) :
    (c.resolve r status).latest? = some { r with status := status } := by
  rw [latest?, rounds_resolve]
  exact List.getLast?_concat

theorem latest?_newRound (c : Coordinator) (s : TaskState) (due : SessionTime) (stamp : Stamp) :
    (c.newRound s due stamp).1.latest? = some (c.nextRound s due) := latest?_pending (round_newRound c s due stamp)

theorem mem_rounds_of_latest? (h : c.latest? = some r) : r ∈ c.rounds := List.mem_of_getLast? h

/-- The status that a coordinator tells is that of the latest round. -/
theorem status?_eq (c : Coordinator) : c.status? = c.latest?.map (·.status) := by
  unfold status?
  cases pending : c.round with
  | some r => rw [latest?_pending pending]; rfl
  | none =>
    rw [latest?, rounds, pending, Fifo.newest?_eq]
    exact congrArg (fun l => (List.getLast? l).map MatchRound.status) (List.append_nil _).symm

/-- A round that has been completed has a selection. -/
theorem Orderly.exists_selection (h : c.Orderly) (mem : r ∈ c.rounds) (completed : r.status = .completed) :
    ∃ p s, r.selections.get? p = some s := by
  rcases List.mem_append.mp mem with archived | pending
  · have satisfied := h.consistent.archived r archived
    rw [completed, MatchRound.outcome] at satisfied
    split at satisfied
    · rename_i agreed
      obtain ⟨s, -, first, -⟩ := (MatchRound.isSatisfied_iff _ _).mp agreed
      exact ⟨_, s, first⟩
    · cases satisfied
  · rw [(h.consistent.pending r (Option.mem_toList.mp pending)).1] at completed
    cases completed

end latest

/-- What has brought a round to its status is not from before its opening. -/
theorem Orderly.opened_le_statusStamp {c : Coordinator} {r : MatchRound} (h : c.Orderly) (mem : r ∈ c.rounds)
    (timed : r.opened ≤ r.deadline) : .scripted r.opened ≤ r.statusStamp := by
  unfold MatchRound.statusStamp
  cases status : r.status with
  | pending => exact Std.le_refl _
  | expired => exact Stamp.scripted_le timed
  | completed =>
    obtain ⟨p, s, held⟩ := h.exists_selection mem status
    obtain ⟨-, q, t, held', same⟩ := MatchRound.latestSelection_eq held .genesis
    dsimp only
    rw [same]
    exact Stamp.scripted_le ((r.covers_iff t.stamp).mp (h.timely r mem q t held')).1

theorem Orderly.opened_le_selectionCell {c : Coordinator} {r : MatchRound} (h : c.Orderly) (mem : r ∈ c.rounds)
    (p : ParticipantId) : .scripted r.opened ≤ (r.selectionCell p).stamp := by
  unfold MatchRound.selectionCell
  cases held : r.selections.get? p with
  | none => exact Std.le_refl _
  | some s => exact Stamp.scripted_le ((r.covers_iff s.stamp).mp (h.timely r mem p s held)).1

/-- **The fields show the latest round**, each under the stamp of what brought it about, and the script has not gone
beyond a time. -/
structure ShownIn (c : Coordinator) (limit : SessionTime) (cells : FieldKey → Option Cell) : Prop where
  status : cells "round-status" = some (c.latest?.elim ⟨.text "none", .genesis⟩ (·.statusCell))
  number : cells "round-number" = some (c.latest?.elim ⟨.int 0, .genesis⟩ (·.numberCell))
  count : ∃ placed, placed ≤ limit ∧ (∀ r, c.latest? = some r → r.opened ≤ placed) ∧
    cells "objectcount" = some ⟨.int (Int64.ofNat c.scene.size), .scripted placed⟩
  selected : ∀ p ∈ [c.participants.1, c.participants.2], cells (selectionKey p) = c.latest?.map (·.selectionCell p)
  opened : ∀ r, c.latest? = some r → r.opened ≤ limit
  /-- A round does not run out before it is opened. -/
  timed : ∀ r, c.latest? = some r → r.opened ≤ r.deadline

/-- The fields show a round in a scene of some size. -/
structure RoundShownIn (r : MatchRound) (participants : ParticipantId × ParticipantId) (size : Nat)
    (limit : SessionTime) (cells : FieldKey → Option Cell) : Prop where
  status : cells "round-status" = some r.statusCell
  number : cells "round-number" = some r.numberCell
  count : ∃ placed, placed ≤ limit ∧ r.opened ≤ placed ∧
    cells "objectcount" = some ⟨.int (Int64.ofNat size), .scripted placed⟩
  selected : ∀ p ∈ [participants.1, participants.2], cells (selectionKey p) = some (r.selectionCell p)
  opened : r.opened ≤ limit
  timed : r.opened ≤ r.deadline

/-- When there has been a round, the fields show the latest one. -/
theorem shownIn_iff {c : Coordinator} {r : MatchRound} {limit : SessionTime} {cells : FieldKey → Option Cell}
    (latest : c.latest? = some r) :
    c.ShownIn limit cells ↔ RoundShownIn r c.participants c.scene.size limit cells := by
  have each : ∀ {P : MatchRound → Prop}, (∀ x, c.latest? = some x → P x) ↔ P r := by
    simp [latest]
  constructor
  · rintro ⟨status, number, ⟨placed, upTo, since, count⟩, selected, opened, timed⟩
    rw [latest] at status number selected
    exact ⟨status, number, ⟨placed, upTo, each.mp since, count⟩, selected, each.mp opened, each.mp timed⟩
  · rintro ⟨status, number, ⟨placed, upTo, since, count⟩, selected, opened, timed⟩
    refine ⟨?_, ?_, ⟨placed, upTo, each.mpr since, count⟩, ?_, each.mpr opened, each.mpr timed⟩
    all_goals rw [latest]
    · exact status
    · exact number
    · exact selected

/-- What the other peer says of the fields that show the latest round is from before that round, or tells what the
coordinator knows. -/
def Knows (c : Coordinator) (d : FieldChange) : Prop :=
  d.key ∈ shownKeys c.participants → ∃ r ∈ c.latest?, d.stamp.time < r.opened ∨
    (∃ e ∈ r.selections.entries, d = selectionChange e.1 e.2) ∨ (r.status = .completed ∧ d = completedChange r)

instance (c : Coordinator) (d : FieldChange) : Decidable (c.Knows d) := by
  unfold Knows
  infer_instance

namespace ShownIn

variable {c : Coordinator} {limit due : SessionTime} {cells : FieldKey → Option Cell} {r : MatchRound}

/-- It depends on the fields only that show the round. -/
theorem of_cells (h : c.ShownIn limit cells) {cells' : FieldKey → Option Cell}
    (same : ∀ key ∈ shownKeys c.participants, cells' key = cells key) : c.ShownIn limit cells' where
  status := (same _ (by simp [shownKeys])).trans h.status
  number := (same _ (by simp [shownKeys])).trans h.number
  count := by
    obtain ⟨placed, upTo, opened, shown⟩ := h.count
    exact ⟨placed, upTo, opened, (same _ (by simp [shownKeys])).trans shown⟩
  selected p mem := by
    refine (same _ ?_).trans (h.selected p mem)
    simp only [List.mem_cons, List.not_mem_nil, or_false] at mem
    rcases mem with rfl | rfl <;> simp [shownKeys]
  opened := h.opened
  timed := h.timed

theorem later (h : c.ShownIn limit cells) (le : limit ≤ due) : c.ShownIn due cells where
  status := h.status
  number := h.number
  count := by
    obtain ⟨placed, upTo, since⟩ := h.count
    exact ⟨placed, Std.le_trans upTo le, since⟩
  selected := h.selected
  opened r latest := Std.le_trans (h.opened r latest) le
  timed := h.timed

/-- Marking the scene as looked over shows nowhere. -/
theorem checkScene (h : c.ShownIn limit cells) : c.checkScene.ShownIn limit cells := by
  cases pending : c.round with
  | none =>
    have same : c.checkScene = c := by
      unfold Coordinator.checkScene
      rw [pending]
    rw [same]
    exact h
  | some r =>
    have here : c.checkScene.round = some { r with sceneChecked := true } := by
      rw [round_checkScene, pending]
      rfl
    have shown := (shownIn_iff (latest?_pending pending)).mp h
    rw [shownIn_iff (latest?_pending here), participants_checkScene, ← c.alike_checkScene.scene]
    exact ⟨shown.status, shown.number, shown.count, shown.selected, shown.opened, shown.timed⟩

/-! ### The script -/

/-- What opening a round writes: one thing to each field. -/
theorem newRound_changes {s : TaskState} {stamp : Stamp} {d : FieldChange} (mem : d ∈ (c.newRound s due stamp).2) :
    d.stamp = stamp ∧ (d.key = "round-status" → d.value = .text RoundStatus.pending.label) ∧
      (d.key = "round-number" → d.value = .int (Int64.ofNat (c.nextRound s due).number)) ∧
      (d.key = "objectcount" → d.value = .int 0) ∧ ∀ p, d.key = selectionKey p → d.value = .int (-1) := by
  have apart : ∀ p, ∀ key ∈ ["round-number", "round-status", "round-deadline", "objectcount"],
      selectionKey p ≠ key ∧ key ≠ selectionKey p := by
    intro p key mem
    have other : ∀ key ∈ ["round-number", "round-status", "round-deadline", "objectcount"],
        FieldKey.begins key "selection-" = false := by decide
    exact ⟨selectionKey_ne p (other key mem), (selectionKey_ne p (other key mem)).symm⟩
  simp only [List.forall_mem_cons, List.not_mem_nil, false_implies, implies_true, and_true] at apart
  rw [newRound_eq] at mem
  simp only [List.mem_cons, List.not_mem_nil, or_false] at mem
  rcases mem with rfl | rfl | rfl | rfl | rfl | rfl <;> simp [apart]

/-- **A round is opened** when nothing in the one before it is as late. -/
theorem newRound (h : c.ShownIn limit cells) (orderly : c.Orderly) (ahead : limit ≤ due)
    (past : ∀ r, c.latest? = some r → r.PastBy due) (s : TaskState) :
    (c.newRound s due (.scripted due)).1.ShownIn due (writtenBy (c.newRound s due (.scripted due)).2 cells) := by
  have latest := c.latest?_newRound s due (.scripted due)
  have opened : ∀ r, c.latest? = some r → r.opened ≤ due := fun r here => Std.le_trans (h.opened r here) ahead
  -- Whatever the fields have shown, it is not ahead of the command.
  have upTo : ∀ {v : FieldValue} {f : MatchRound → Cell}, (∀ r, c.latest? = some r → (f r).stamp ≤ .scripted due) →
      StampedUpTo (some (c.latest?.elim ⟨v, .genesis⟩ f)) (.scripted due) := by
    rintro v f bounded held ⟨⟩
    cases here : c.latest? with
    | none => exact Stamp.scripted_le (SessionTime.zero_le due)
    | some r => exact bounded r here
  have shows : ∀ {key : FieldKey} {v : FieldValue}, StampedUpTo (cells key) (.scripted due) → v.Plain →
      ⟨key, v, .scripted due⟩ ∈ (c.newRound s due (.scripted due)).2 →
      (∀ d ∈ (c.newRound s due (.scripted due)).2, d.key = key → d.value = v) →
      writtenBy (c.newRound s due (.scripted due)).2 cells key = some ⟨v, .scripted due⟩ := by
    intro key v bounded plain written one
    refine writtenBy_upTo bounded plain written fun d mem same => ?_
    obtain ⟨k, w, stamp⟩ := d
    cases same
    cases one _ mem rfl
    cases (newRound_changes mem).1
    rfl
  rw [shownIn_iff latest]
  refine ⟨?_, ?_, ⟨due, Std.le_refl _, Std.le_refl _, ?_⟩, fun p mem => ?_, Std.le_refl _,
    c.opened_le_deadline_nextRound s due⟩
  · have bounded := upTo (v := .text "none") fun r here => (past r here).statusCell (opened r here)
      (orderly.exists_selection (mem_rounds_of_latest? here))
    refine shows (h.status ▸ bounded) (FieldValue.plain_text _) ?_ fun d mem => (newRound_changes mem).2.1
    rw [newRound_eq]
    exact List.mem_cons_of_mem _ List.mem_cons_self
  · have bounded := upTo (v := .int 0) (f := MatchRound.numberCell) fun r here => Stamp.scripted_le (opened r here)
    refine shows (h.number ▸ bounded) (FieldValue.plain_int _) ?_ fun d mem => (newRound_changes mem).2.2.1
    rw [newRound_eq]
    exact List.mem_cons_self
  · obtain ⟨placed, before, -, shown⟩ := h.count
    have bounded : StampedUpTo (cells "objectcount") (.scripted due) := by
      rw [shown]
      rintro held ⟨⟩
      exact Stamp.scripted_le (Std.le_trans before ahead)
    refine shows (v := .int 0) bounded (FieldValue.plain_int _) ?_ fun d mem => (newRound_changes mem).2.2.2.1
    simp [newRound_eq]
  · rw [participants_newRound] at mem
    have bounded : StampedUpTo (cells (selectionKey p)) (.scripted due) := by
      rw [h.selected p mem]
      intro held shown
      obtain ⟨r, here, rfl⟩ := Option.map_eq_some_iff.mp shown
      exact (past r here).selectionCell (opened r here) p
    refine shows bounded (FieldValue.plain_int _) ?_ fun d mem => (newRound_changes mem).2.2.2.2 p
    simp only [List.mem_cons, List.not_mem_nil, or_false] at mem
    rw [newRound_eq]
    rcases mem with rfl | rfl <;> simp

/-- An object is placed. -/
theorem addObject (h : c.ShownIn limit cells) (ahead : limit ≤ due) (s : TaskState) :
    (c.addObject s (.scripted due)).1.ShownIn due (writtenBy (c.addObject s (.scripted due)).2 cells) := by
  have other : ∀ key, key ≠ "objectcount" → writtenBy (c.addObject s (.scripted due)).2 cells key = cells key :=
    fun key differ => writtenBy_of_other fun d mem => by
      rw [List.mem_singleton.mp mem]
      exact differ.symm
  have same := h.later ahead
  obtain ⟨placed, before, -, shown⟩ := h.count
  refine ⟨?_, ?_, ⟨due, Std.le_refl _, same.opened, ?_⟩, fun p mem => ?_, same.opened, same.timed⟩
  · exact (other _ (by decide)).trans h.status
  · exact (other _ (by decide)).trans h.number
  · have bounded : StampedUpTo (cells "objectcount") (.scripted due) := by
      rw [shown]
      rintro held ⟨⟩
      exact Stamp.scripted_le (Std.le_trans before ahead)
    exact writtenBy_upTo bounded (FieldValue.plain_int _) List.mem_cons_self fun d mem _ => List.mem_singleton.mp mem
  · exact (other _ (selectionKey_ne p (by decide))).trans (h.selected p mem)

/-! ### Selections and the end of a round -/

/-- **A selection is taken.** -/
theorem taken {p : ParticipantId} {sel : Selection} (h : c.ShownIn limit cells) (takes : c.Takes r p sel)
    (pending : r.status = .pending) : ({ c with round := some (r.taking p sel) } : Coordinator).ShownIn limit
      (writtenBy [selectionChange p sel] cells) := by
  have after : ({ c with round := some (r.taking p sel) } : Coordinator).latest? = some (r.taking p sel) :=
    latest?_pending rfl
  obtain ⟨status, number, ⟨placed, upTo, since, count⟩, selected, opened, timed⟩ :=
    (shownIn_iff (latest?_pending takes.pending)).mp h
  have other : ∀ key, selectionKey p ≠ key → writtenBy [selectionChange p sel] cells key = cells key :=
    fun key differ => writtenBy_of_other fun d mem => by
      rw [List.mem_singleton.mp mem]
      exact differ
  rw [shownIn_iff after]
  refine ⟨?_, ?_, ⟨placed, upTo, since, ?_⟩, fun q mem => ?_, opened, timed⟩
  · have same : (r.taking p sel).statusCell = r.statusCell :=
      (MatchRound.statusCell_pending (r := r.taking p sel) pending).trans (MatchRound.statusCell_pending pending).symm
    rw [other _ (selectionKey_ne_status p), status]
    exact congrArg some same.symm
  · exact (other _ (selectionKey_ne p (by decide))).trans number
  · exact (other _ (selectionKey_ne p (by decide))).trans count
  · rw [MatchRound.selectionCell_taking]
    by_cases own : p = q
    · subst own
      -- The participant has not selected before, so the field is as the round was opened.
      have bounded : StampedUpTo (cells (selectionKey p)) sel.stamp := by
        rw [selected p mem, MatchRound.selectionCell, takes.first]
        rintro held ⟨⟩
        exact Stamp.scripted_le ((r.covers_iff sel.stamp).mp takes.covered).1
      rw [if_pos rfl]
      exact writtenBy_upTo bounded (FieldValue.plain_int _) List.mem_cons_self fun d mem _ => List.mem_singleton.mp mem
    · rw [if_neg own, other _ fun same => own (selectionKey_inj same)]
      exact selected q mem

/-- **The pending round ends**, and its status is written at its opening or later. -/
theorem resolve {status : RoundStatus} {stamp : Stamp} {changes : List FieldChange} (h : c.ShownIn limit cells)
    (here : c.round = some r) (pending : r.status = .pending)
    (stamped : ({ r with status := status } : MatchRound).statusStamp = stamp) (late : .scripted r.opened ≤ stamp)
    (shows : ⟨"round-status", .text status.label, stamp⟩ ∈ changes)
    (one : ∀ d ∈ changes, d.key = "round-status" → d = ⟨"round-status", .text status.label, stamp⟩)
    (aside : ∀ d ∈ changes, d.key ∈ outcomeKeys) :
    (c.resolve r status).ShownIn limit (writtenBy changes cells) := by
  obtain ⟨shown, number, ⟨placed, upTo, since, count⟩, selected, opened, timed⟩ :=
    (shownIn_iff (latest?_pending here)).mp h
  have other : ∀ key, key ∉ outcomeKeys → writtenBy changes cells key = cells key := fun key unlisted =>
    writtenBy_of_other fun d mem same => unlisted (same ▸ aside d mem)
  have unlisted : ∀ p, selectionKey p ∉ outcomeKeys := fun p mem => by
    simp only [outcomeKeys, List.mem_cons, List.not_mem_nil, or_false] at mem
    rcases mem with same | same
    · exact selectionKey_ne_status p same
    · exact selectionKey_ne p (by decide) same
  rw [shownIn_iff (c.latest?_resolve r status)]
  refine ⟨?_, (other _ (by decide)).trans number, ⟨placed, upTo, since, (other _ (by decide)).trans count⟩,
    fun p mem => (other _ (unlisted p)).trans (selected p mem), opened, timed⟩
  · have bounded : StampedUpTo (cells "round-status") stamp := by
      rw [shown]
      rintro held ⟨⟩
      show r.statusCell.stamp ≤ stamp
      rw [MatchRound.statusCell_pending pending]
      exact late
    rw [writtenBy_upTo bounded (FieldValue.plain_text _) shows one, ← stamped]
    rfl

/-- **Whatever a selection comes to**, it is shown. -/
theorem selects {p : ParticipantId} {object : ObjectId} {stamp : Stamp}
    {out : Coordinator × Except Fault (List FieldChange)} (h : c.ShownIn limit cells) (orderly : c.Orderly)
    (went : c.Selects p object stamp out) : out.1.ShownIn limit (writtenBy (out.2.toOption.getD []) cells) := by
  have pending : ∀ {r : MatchRound}, c.checkScene.round = some r → r.status = .pending := fun here =>
    (orderly.consistent.checkScene.pending _ here).1
  cases went with
  | refused | again => exact h.checkScene
  | taken takes => exact h.checkScene.taken takes (pending takes.pending)
  | @completed r kind takes =>
    have first := h.checkScene.taken takes (pending takes.pending)
    have late : .scripted r.opened ≤ (r.taking p ⟨object, kind, stamp⟩).resolvedAt := by
      have stands := (get?_taking r p ⟨object, kind, stamp⟩ p).trans (if_pos rfl)
      obtain ⟨-, q, s, held, same⟩ := MatchRound.latestSelection_eq stands stamp
      have timely := (orderly.checkScene.round_timely takes.pending).taking takes.covered q s held
      rw [same]
      exact Stamp.scripted_le ((MatchRound.covers_iff _ _).mp timely).1
    show ShownIn _ limit (writtenBy [_, completedChange (r.taking p ⟨object, kind, stamp⟩)] cells)
    rw [writtenBy_cons]
    have open_ := pending takes.pending
    refine first.resolve (r := r.taking p ⟨object, kind, stamp⟩) rfl open_ rfl late
      List.mem_cons_self (fun d mem _ => List.mem_singleton.mp mem) fun d mem => ?_
    rw [List.mem_singleton.mp mem]
    exact List.mem_cons_self

/-- **A round that runs out** is shown as expired. -/
theorem tick (h : c.ShownIn limit cells) (now : SessionTime) (s : TaskState) :
    (c.tick now s).1.ShownIn limit (writtenBy (c.tick now s).2 cells) := by
  rw [tick_eq]
  cases out : c.round.filter (fun r => r.status = .pending ∧ r.deadline ≤ now) with
  | none => exact h
  | some r =>
    obtain ⟨here, ended⟩ := Option.filter_eq_some_iff.mp out
    have marked : c.checkScene.round = some { r with sceneChecked := true } := by
      rw [round_checkScene, here]
      rfl
    have same : c.checkScene.expirePending = c.checkScene.resolve { r with sceneChecked := true } .expired := by
      rw [Coordinator.expirePending, marked]
    show ShownIn (c.checkScene.expirePending) limit (writtenBy (expiredChanges r s) cells)
    rw [same]
    have stamped : ({ r with sceneChecked := true, status := .expired } : MatchRound).statusStamp = r.timeout := rfl
    refine h.checkScene.resolve marked (of_decide_eq_true ended).1 stamped
      (Stamp.scripted_le (h.timed r (latest?_pending here))) List.mem_cons_self (fun d mem status => ?_) fun d mem => ?_
    · simp only [expiredChanges, List.mem_cons, List.not_mem_nil, or_false] at mem
      rcases mem with rfl | rfl
      · rfl
      · exact absurd status (by simp)
    · simp only [expiredChanges, List.mem_cons, List.not_mem_nil, or_false] at mem
      rcases mem with rfl | rfl <;> simp [outcomeKeys]

/-! ### What the other peer says -/

/-- **What the other peer says** of the round changes nothing, as long as the coordinator knows it. -/
theorem told (h : c.ShownIn limit cells) (orderly : c.Orderly) {changes : List FieldChange}
    (known : ∀ d ∈ changes, c.Knows d) : c.ShownIn limit (writtenBy changes cells) := by
  refine h.of_cells fun key mem => writtenBy_of_spent fun d told same => ?_
  subst same
  obtain ⟨r, latest, found⟩ := known d told mem
  have among := mem_rounds_of_latest? latest
  obtain ⟨status, number, ⟨placed, -, since, count⟩, selected, -, timed⟩ := (shownIn_iff latest).mp h
  have selection : ∀ p, selectionKey p ∈ shownKeys c.participants →
      cells (selectionKey p) = some (r.selectionCell p) := by
    intro p mem
    refine selected p ?_
    simp only [shownKeys, List.mem_cons, List.not_mem_nil, or_false] at mem
    rcases mem with same | same | same | same | same
    · exact absurd same (selectionKey_ne_status p)
    · exact absurd same (selectionKey_ne p (by decide))
    · exact absurd same (selectionKey_ne p (by decide))
    · simp [selectionKey_inj same]
    · simp [selectionKey_inj same]
  rcases found with stale | ⟨e, entry, rfl⟩ | ⟨completed, rfl⟩
  · -- No field is stamped below the opening of the round that it shows.
    have below : ∀ held : Cell, .scripted r.opened ≤ held.stamp → Spent (some held) d := fun held since =>
      writeCell_below held (Std.lt_of_lt_of_le (Stamp.lt_of_time stale) since)
    simp only [shownKeys, List.mem_cons, List.not_mem_nil, or_false] at mem
    rcases mem with same | same | same | same | same
    · rw [same, status]
      exact below _ (orderly.opened_le_statusStamp among timed)
    · rw [same, number]
      exact below _ (Std.le_refl _)
    · rw [same, count]
      exact below _ (Stamp.scripted_le since)
    · rw [same, selected _ (by simp)]
      exact below _ (orderly.opened_le_selectionCell among _)
    · rw [same, selected _ (by simp)]
      exact below _ (orderly.opened_le_selectionCell among _)
  · have stands := (OrderedMap.get?_eq_some_iff r.selections e.1 e.2).mpr entry
    have shown : r.selectionCell e.1 = ⟨.int (Int64.ofNat e.2.object.id.toNat), e.2.stamp⟩ := by
      rw [MatchRound.selectionCell, stands]
    show Spent (cells (selectionKey e.1)) _
    rw [selection e.1 mem, shown]
    exact spent_made (selectionChange e.1 e.2)
  · have shown : r.statusCell = ⟨.text RoundStatus.completed.label, r.resolvedAt⟩ := by
      rw [MatchRound.statusCell, MatchRound.statusStamp, completed]
    show Spent (cells "round-status") _
    rw [status, shown]
    exact spent_made (completedChange r)

end ShownIn

end Coordinator

/-! ## Batteries -/

/-- The command sets none of the fields that show the latest round. -/
def CommandPayload.spares (participants : ParticipantId × ParticipantId) : CommandPayload → Bool
  | .set (.task .matching) key _ => key ∉ Coordinator.shownKeys participants
  | _ => true

/-- What an action writes that concerns neither rounds nor the scene. -/
theorem Action.key_changes {a : Action} {stamp : Stamp} {d : FieldChange} (mem : d ∈ a.changes stamp) :
    d.key ∈ ["running", "visible", "paused", "progresstimer-started"] := by
  cases a <;> simp [Action.changes, Action.flags] at mem <;> grind

/-- A parameter of the matching task is its own field, and no other goes with it. -/
theorem TaskState.key_parameterChanges {s : TaskState} (task : s.task = .matching) {key : FieldKey} {raw : String}
    {stamp : Stamp} {d : FieldChange} (mem : d ∈ (s.parameterChanges? key raw stamp).getD []) : d.key = key := by
  cases made : s.parameterChanges? key raw stamp with
  | none =>
    rw [made] at mem
    exact absurd mem List.not_mem_nil
  | some changes =>
    rw [made] at mem
    obtain ⟨value, -, made⟩ := Option.bind_eq_some_iff.mp made
    obtain ⟨-, -, made⟩ := Option.bind_eq_some_iff.mp made
    cases made
    rw [lightChange?_matching task, Option.toList_none] at mem
    rw [List.mem_singleton.mp mem]
    cases stands : s.task.radioAlias? key with
    | none => rfl
    | some k =>
      have communications := (TaskId.of_radioAlias? stands).1
      rw [task] at communications
      cases communications

namespace Battery

/-- **The fields of the matching task agree with the coordinator**: they show the status and the number of the latest
round, how many objects are in the scene and, once there has been a round, what either participant has selected in the
latest one. -/
structure Mirrors (b : Battery) : Prop where
  status : (b.store.read .matching).get? "round-status" =
    some (.text ((b.matching.status?.map RoundStatus.label).getD "none"))
  number : (b.store.read .matching).get? "round-number" =
    some (.int (Int64.ofNat ((b.matching.latest?.map MatchRound.number).getD 0)))
  count : (b.store.read .matching).get? "objectcount" = some (.int (Int64.ofNat b.matching.scene.size))
  selected : ∀ r, b.matching.latest? = some r → ∀ p ∈ [b.matching.participants.1, b.matching.participants.2],
    (b.store.read .matching).get? (Coordinator.selectionKey p) =
      some (.int (((r.selections.get? p).map fun s => Int64.ofNat s.object.id.toNat).getD (-1)))

/-- A battery whose fields show the latest round, where the script has not gone beyond a time. -/
structure Shows (participants : ParticipantId × ParticipantId) (limit : SessionTime) (b : Battery) : Prop where
  orderly : b.matching.Orderly
  shown : b.matching.ShownIn limit (b.cell? .matching)
  participants : b.matching.participants = participants
  task : (b.store.read .matching).task = .matching

namespace Shows

variable {participants : ParticipantId × ParticipantId} {limit due : SessionTime} {b b' : Battery}

theorem mirrors (h : b.Shows participants limit) : b.Mirrors where
  status := by
    rw [TaskState.get?, show (b.store.read .matching).cell? "round-status" = _ from h.shown.status,
      Coordinator.status?_eq]
    cases b.matching.latest? <;> rfl
  number := by
    rw [TaskState.get?, show (b.store.read .matching).cell? "round-number" = _ from h.shown.number]
    cases b.matching.latest? <;> rfl
  count := by
    obtain ⟨placed, -, -, shown⟩ := h.shown.count
    rw [TaskState.get?, show (b.store.read .matching).cell? "objectcount" = _ from shown]
    rfl
  selected r latest p mem := by
    have shown := h.shown.selected p mem
    rw [latest, Option.map_some, MatchRound.selectionCell] at shown
    rw [TaskState.get?, show (b.store.read .matching).cell? (Coordinator.selectionKey p) = _ from shown]
    cases r.selections.get? p <;> rfl

theorem new (capacity : Nat) (participants : ParticipantId × ParticipantId) :
    (Battery.new capacity participants).Shows participants .zero where
  orderly := Coordinator.orderly_new participants
  shown := by
    have start : ∀ key, (Battery.new capacity participants).cell? .matching key =
        (TaskState.initial .matching).cell? key := cell?_new capacity participants .matching
    have fields : (TaskState.initial .matching).cell? "round-status" = some ⟨.text "none", .genesis⟩ ∧
        (TaskState.initial .matching).cell? "round-number" = some ⟨.int 0, .genesis⟩ ∧
        (TaskState.initial .matching).cell? "objectcount" = some ⟨.int 0, .genesis⟩ := by decide +kernel
    refine ⟨?_, ?_, ⟨.zero, Std.le_refl _, nofun, ?_⟩, fun p mem => ?_, nofun, nofun⟩
    · exact (start _).trans fields.1
    · exact (start _).trans fields.2.1
    · exact (start _).trans fields.2.2
    · -- There is no such field before the first round.
      have table : ∀ d ∈ TaskId.defaults .matching, FieldKey.begins d.1 "selection-" = false := by decide +kernel
      rw [start]
      cases found : (TaskState.initial .matching).cell? (Coordinator.selectionKey p) with
      | none => rfl
      | some cell =>
        have other := table _ (TaskState.mem_defaults_of_cell?_initial found).1
        rw [Coordinator.begins_selectionKey] at other
        cases other
  participants := rfl
  task := task_read_new capacity participants .matching

theorem later (h : b.Shows participants limit) (le : limit ≤ due) : b.Shows participants due :=
  ⟨h.orderly, h.shown.later le, h.participants, h.task⟩

/-- A mutation of another task is of no concern here, nor is one of other fields. -/
theorem aside (h : b.Shows participants limit) (m : Mutation)
    (other : m.task = .matching → ∀ d ∈ m.changes, d.key ∉ Coordinator.shownKeys participants) :
    (b.apply m).1.Shows participants limit where
  orderly := h.orderly
  shown := by
    refine h.shown.of_cells fun key mem => ?_
    rw [cell?_apply]
    unfold Mutation.writesAt
    split
    · rename_i here
      refine writtenBy_of_other fun d made same => other here d made ?_
      rw [same, ← h.participants]
      exact mem
    · rfl
  participants := h.participants
  task := (task_read_apply b m .matching).trans h.task

/-- The coordinator and the fields of its task go on together. -/
theorem step (h : b.Shows participants limit) {c : Coordinator} {changes : List FieldChange} (orderly : c.Orderly)
    (shown : c.ShownIn due (writtenBy changes (b.cell? .matching))) (same : c.participants = b.matching.participants)
    (origin : Origin) :
    ({ b with matching := c }.apply ⟨.matching, origin, changes⟩).1.Shows participants due where
  orderly := orderly
  shown := by
    have cells : ({ b with matching := c }.apply ⟨.matching, origin, changes⟩).1.cell? .matching =
        writtenBy changes (b.cell? .matching) := by
      funext key
      rw [cell?_apply, Mutation.writesAt, if_pos rfl]
      rfl
    rw [cells]
    exact shown
  participants := same.trans h.participants
  task := (task_read_apply _ _ .matching).trans h.task

/-- **A command of the script**, in its place: if it opens a round, nothing in the one before it is as late. -/
theorem run (h : b.Shows participants limit) {c : ScenarioCommand} (ahead : limit ≤ c.due)
    (allowed : c.payload.isAllowed = true) (spares : c.payload.spares participants = true)
    (past : ∀ r ∈ (b.run c).1.matching.round, (b.run c).1.matching.roundsOpened ≠ b.matching.roundsOpened →
      ∀ last ∈ b.matching.latest?, last.PastBy r.opened) : (b.run c).1.Shows participants c.due := by
  have waits := h.later ahead
  rw [matching_run] at past
  -- A command that leaves the rounds and the scene alone.
  have quiet : (b.scripted c).1 = b.matching → (c.payload.task? = some .matching →
      ∀ d ∈ (b.scripted c).2, d.key ∉ Coordinator.shownKeys participants) → (b.run c).1.Shows participants c.due := by
    intro same other
    rw [run_fst]
    cases task : c.payload.task? with
    | none => exact waits
    | some t =>
      have here : { b with matching := (b.scripted c).1 } = b := by rw [same]
      dsimp only
      rw [here]
      exact waits.aside _ fun matching => other (task.trans (congrArg some matching))
  obtain ⟨dueSecond, priority, payload, line, index⟩ := c
  cases payload with
  | act target a =>
    cases target with
    | session => exact quiet rfl nofun
    | task t =>
      by_cases ordinary : a ≠ .addObject ∧ a ≠ .newRound
      · rw [scripted_act _ _ _ _ _ _ ordinary] at quiet
        refine quiet rfl fun _ d mem => ?_
        have table : ∀ key ∈ ["running", "visible", "paused", "progresstimer-started"],
            key ∉ ["round-status", "round-number", "objectcount"] ∧ FieldKey.begins key "selection-" = false := by
          decide
        obtain ⟨plain, other⟩ := table _ (Action.key_changes mem)
        exact Coordinator.not_mem_shownKeys plain other
      · cases a with
        | addObject =>
          cases of_decide_eq_true (p := t = .matching) allowed
          rw [run_fst]
          exact h.step (h.orderly.addObject _ _) (h.shown.addObject ahead _) rfl .scenario
        | newRound =>
          cases of_decide_eq_true (p := t = .matching) allowed
          have opens : ∀ s due stamp, (b.matching.newRound s due stamp).1.roundsOpened ≠ b.matching.roundsOpened := by
            intro s due stamp
            rw [Coordinator.newRound_eq]
            exact Nat.succ_ne_self _
          rw [run_fst]
          refine h.step (h.orderly.newRound _ _ _) ?_ (Coordinator.participants_newRound _ _ _ _) .scenario
          exact h.shown.newRound h.orderly ahead (past _ (Coordinator.round_newRound _ _ _ _) (opens _ _ _)) _
        | _ => exact absurd ⟨nofun, nofun⟩ ordinary
  | set target key raw =>
    cases target with
    | session => exact quiet rfl nofun
    | task t =>
      refine quiet rfl fun here d mem => ?_
      cases here
      rw [TaskState.key_parameterChanges h.task mem]
      exact of_decide_eq_true spares

/-- **An input** of a participant, for its own task. -/
theorem applyInput (h : b.Shows participants limit) {e : InputEvent} (aimed : e.target = e.payload.task)
    (stamp : Stamp) (origin : Origin) : (b.applyInput e stamp origin).1.Shows participants limit := by
  rw [applyInput_fst]
  split
  · obtain ⟨sender, isLocal, target, time, payload⟩ := e
    dsimp only at aimed
    subst aimed
    cases payload with
    | matchSelect object =>
      have went := b.matching.selects_select sender object stamp
      exact h.step (went.orderly h.orderly) (h.shown.selects h.orderly went) went.alike.participants.symm origin
    | matchCentering score =>
      refine h.aside ⟨.matching, origin, Coordinator.centering sender score stamp⟩ fun _ d mem => ?_
      rw [List.mem_singleton.mp mem]
      exact Coordinator.centeringKey_not_mem_shownKeys sender
    | monitoringAck | trackingMove | communicationTune | pumpToggle => exact h.aside _ nofun
  · exact h

/-- **A round that runs out.** -/
theorem expireRounds (h : b.Shows participants limit) (now : SessionTime) :
    (b.expireRounds now).1.Shows participants limit := by
  have ticked : (b.expireRounds now).1 = ({ b with matching := (b.matching.tick now (b.store.read .matching)).1 }.apply
      ⟨.matching, .scenario, (b.matching.tick now (b.store.read .matching)).2⟩).1 := by
    unfold Battery.expireRounds
    dsimp only
    split
    · rename_i none
      rw [List.isEmpty_iff.mp none, fst_apply_nil]
    · rfl
  rw [ticked]
  exact h.step (h.orderly.tick now _) (h.shown.tick now _) (b.matching.participants_callAll [.tick now _]) .scenario

/-- **What the other peer says** and the coordinator knows. -/
theorem told (h : b.Shows participants limit) {t : TaskId} {changes : List FieldChange}
    (known : t = .matching → ∀ d ∈ changes, b.matching.Knows d) (origin : Origin) :
    (b.apply ⟨t, origin, changes⟩).1.Shows participants limit := by
  by_cases here : t = .matching
  · cases here
    exact h.step h.orderly (h.shown.told h.orderly (known rfl)) rfl origin
  · exact h.aside _ fun same => absurd same here

end Shows

end Battery

end Tandem
