import Tandem.Matching.Coordinator
/-!
# The rounds of a coordinator

A coordinator keeps the rounds that are over in its archive and the pending one beside it.  Seen as one list,
`Coordinator.rounds`, the rounds only become more: the script opens them (`newRound`), participants select in the
last one (`select`), and it ends (`select`, `tick`, `newRound`).  Each operation is described by what it does to
three views of that list.

* `Coordinator.opened`: the rounds as they were opened.  Only `newRound` touches this view.
* `Coordinator.taken`: the selections.  Only a selection that is taken touches this view, in the last round.
* The archive, in which every round ended as its selections say (`Coordinator.Consistent`): a round that is satisfied
  ends at once, and one that is not never ends as completed.

`Coordinator.Selects` lists what a selection can come to.  Only what depends on which selections are refused has to look
into `Coordinator.select` again.
-/

namespace Tandem

namespace MatchRound

/-- The round as it was opened, without any trace of its course. -/
def asOpened (r : MatchRound) : MatchRound :=
  { r with status := .pending, selections := .empty, sceneChecked := false }

/-- The round with one more selection. -/
def taking (r : MatchRound) (p : ParticipantId) (s : Selection) : MatchRound :=
  { r with selections := r.selections.insert p s }

/-- How a round that is over must have ended. -/
def outcome (r : MatchRound) (participants : ParticipantId × ParticipantId) : RoundStatus :=
  if r.isSatisfied participants then .completed else .expired

/-- The stamp of the selection that completed a round. -/
def resolvedAt (r : MatchRound) : Stamp := r.latestSelection .genesis

/-- The latest selection of a round is one of its selections. -/
theorem latestSelection_eq {r : MatchRound} {p : ParticipantId} {s : Selection} (h : r.selections.get? p = some s)
    (fallback : Stamp) :
    r.latestSelection fallback = r.resolvedAt ∧ ∃ q t, r.selections.get? q = some t ∧ r.resolvedAt = t.stamp := by
  have fold : ∀ (l : List Selection) (first : Selection),
      ∃ t ∈ first :: l, l.foldl (fun s selection => s.highest selection.stamp) first.stamp = t.stamp := by
    intro l
    induction l with
    | nil => exact fun first => ⟨first, List.mem_cons_self, rfl⟩
    | cons next rest ih =>
      intro first
      rw [List.foldl_cons, Stamp.highest]
      split
      · obtain ⟨t, mem, same⟩ := ih next
        exact ⟨t, List.mem_cons_of_mem first mem, same⟩
      · obtain ⟨t, mem, same⟩ := ih first
        refine ⟨t, ?_, same⟩
        rcases List.mem_cons.mp mem with rfl | mem
        · exact List.mem_cons_self
        · exact List.mem_cons_of_mem first (List.mem_cons_of_mem next mem)
  rw [OrderedMap.get?_eq_some_iff] at h
  cases values : r.selections.values with
  | nil =>
    have some : s ∈ r.selections.values := List.mem_map_of_mem h
    rw [values] at some
    exact absurd some List.not_mem_nil
  | cons first rest =>
    obtain ⟨t, mem, same⟩ := fold rest first
    rw [← values] at mem
    obtain ⟨⟨q, _⟩, entry, rfl⟩ := List.mem_map.mp mem
    refine ⟨?_, q, _, (OrderedMap.get?_eq_some_iff _ _ _).mpr entry, ?_⟩
    · rw [resolvedAt, latestSelection, latestSelection, values]
    · rw [resolvedAt, latestSelection, values]
      exact same

end MatchRound

namespace Coordinator

/-- Every round that has been opened, the pending one last. -/
def rounds (c : Coordinator) : List MatchRound := c.archive.toList ++ c.round.toList

/-- The rounds as they were opened. -/
def opened (c : Coordinator) : List MatchRound := c.rounds.map MatchRound.asOpened

/-- The selections of the rounds. -/
def taken (c : Coordinator) : List (OrderedMap ParticipantId Selection) := c.rounds.map (·.selections)

/-- A selection of a participant stands in the round at a place. -/
def Took (c : Coordinator) (n : Nat) (p : ParticipantId) (s : Selection) : Prop :=
  ∃ selections, c.taken[n]? = some selections ∧ selections.get? p = some s

/-- A round was completed by a selection with a stamp. -/
def Completed (c : Coordinator) (s : Stamp) : Prop :=
  ∃ r ∈ c.archive.toList, r.status = .completed ∧ r.resolvedAt = s

/-- Every round ended as its selections say, and the pending one has no reason to end. -/
structure Consistent (c : Coordinator) : Prop where
  archived : ∀ r ∈ c.archive.toList, r.status = r.outcome c.participants
  pending : ∀ r, c.round = some r → r.status = .pending ∧ r.isSatisfied c.participants = false

/-- What two coordinators have in common on which the same commands have been run: the scene and the rounds as they
were opened.  Selections, and how the rounds went, may differ. -/
structure Alike (c d : Coordinator) : Prop where
  participants : c.participants = d.participants
  scene : c.scene = d.scene
  nextObject : c.nextObject = d.nextObject
  roundsOpened : c.roundsOpened = d.roundsOpened
  opened : c.opened = d.opened

/-- Nothing that has been recorded is lost. -/
structure Extends (c d : Coordinator) : Prop where
  took : ∀ n p s, c.Took n p s → d.Took n p s
  completed : ∀ s, c.Completed s → d.Completed s

theorem Alike.refl (c : Coordinator) : c.Alike c := ⟨rfl, rfl, rfl, rfl, rfl⟩

theorem Alike.symm {c d : Coordinator} (h : c.Alike d) : d.Alike c :=
  ⟨h.participants.symm, h.scene.symm, h.nextObject.symm, h.roundsOpened.symm, h.opened.symm⟩

theorem Alike.trans {c d e : Coordinator} (first : c.Alike d) (second : d.Alike e) : c.Alike e :=
  ⟨first.participants.trans second.participants, first.scene.trans second.scene,
    first.nextObject.trans second.nextObject, first.roundsOpened.trans second.roundsOpened,
    first.opened.trans second.opened⟩

theorem Extends.refl (c : Coordinator) : c.Extends c := ⟨fun _ _ _ => id, fun _ => id⟩

theorem Extends.trans {c d e : Coordinator} (first : c.Extends d) (second : d.Extends e) : c.Extends e :=
  ⟨fun n p s h => second.took n p s (first.took n p s h), fun s h => second.completed s (first.completed s h)⟩

/-- If the selections that stand remain and rounds are only added to the archive, nothing is lost. -/
theorem Extends.of {c d : Coordinator} (took : ∀ n p s, c.Took n p s → d.Took n p s)
    (archive : c.archive.toList <+: d.archive.toList) : c.Extends d :=
  ⟨took, fun _ ⟨r, mem, done⟩ => ⟨r, archive.subset mem, done⟩⟩

/-! ## Marking and ending the pending round -/

theorem opened_eq (c : Coordinator) : c.opened =
    c.archive.toList.map MatchRound.asOpened ++ c.round.toList.map MatchRound.asOpened := List.map_append

theorem taken_eq (c : Coordinator) : c.taken =
    c.archive.toList.map (·.selections) ++ c.round.toList.map (·.selections) := List.map_append

theorem rounds_resolve (c : Coordinator) (r : MatchRound) (status : RoundStatus) :
    (c.resolve r status).rounds = c.archive.toList ++ [{ r with status := status }] := by
  rw [rounds, resolve, Fifo.toList_push]
  exact List.append_nil _

section checkScene

variable (c : Coordinator)

/-- Looking the scene over marks the pending round and changes nothing else that matters here. -/
theorem checkScene_spec : c.Alike c.checkScene ∧ c.checkScene.taken = c.taken ∧
    c.checkScene.archive = c.archive ∧
    c.checkScene.round = c.round.map (fun r => { r with sceneChecked := true }) := by
  unfold checkScene
  cases pending : c.round with
  | none => exact ⟨.refl c, rfl, rfl, pending⟩
  | some r =>
    dsimp only
    split
    · rename_i checked
      refine ⟨.refl c, rfl, rfl, ?_⟩
      rw [pending]
      obtain ⟨_, _, _, _, _, _, _, _⟩ := r
      exact congrArg (fun checked => some (MatchRound.mk _ _ _ _ _ _ _ checked)) checked
    · refine ⟨⟨rfl, rfl, rfl, rfl, ?_⟩, ?_, rfl, rfl⟩
      · rw [opened_eq, opened_eq, pending]
        rfl
      · rw [taken_eq, taken_eq, pending]
        rfl

theorem alike_checkScene : c.Alike c.checkScene := c.checkScene_spec.1

@[simp] theorem taken_checkScene : c.checkScene.taken = c.taken := c.checkScene_spec.2.1

@[simp] theorem archive_checkScene : c.checkScene.archive = c.archive := c.checkScene_spec.2.2.1

theorem round_checkScene : c.checkScene.round = c.round.map (fun r => { r with sceneChecked := true }) :=
  c.checkScene_spec.2.2.2

@[simp] theorem participants_checkScene : c.checkScene.participants = c.participants :=
  c.alike_checkScene.participants.symm

/-- A round that is replaced or runs out is archived with its selections. -/
theorem expirePending_spec : c.Alike c.expirePending ∧ c.expirePending.taken = c.taken ∧
    c.expirePending.archive.toList = c.archive.toList ++ c.round.toList.map ({ · with status := .expired }) ∧
    c.expirePending.round = none := by
  unfold expirePending
  cases pending : c.round with
  | none => exact ⟨.refl c, rfl, (List.append_nil _).symm, pending⟩
  | some r =>
    refine ⟨⟨rfl, rfl, rfl, rfl, ?_⟩, ?_, Fifo.toList_push _ _, rfl⟩
    · rw [opened_eq, opened_eq, pending]
      simp [resolve, MatchRound.asOpened]
    · rw [taken_eq, taken_eq, pending]
      simp [resolve]

@[simp] theorem taken_expirePending : c.expirePending.taken = c.taken := c.expirePending_spec.2.1

theorem archive_expirePending : c.expirePending.archive.toList =
    c.archive.toList ++ c.round.toList.map ({ · with status := .expired }) := c.expirePending_spec.2.2.1

@[simp] theorem round_expirePending : c.expirePending.round = none := c.expirePending_spec.2.2.2

@[simp] theorem participants_expirePending : c.expirePending.participants = c.participants :=
  c.expirePending_spec.1.participants.symm

end checkScene

theorem extends_checkScene (c : Coordinator) : c.Extends c.checkScene := by
  refine .of (fun n p s took => ?_) ?_
  · rwa [Took, taken_checkScene]
  · exact c.archive_checkScene ▸ List.prefix_refl _

theorem extends_expirePending (c : Coordinator) : c.Extends c.expirePending := by
  refine .of (fun n p s took => ?_) ?_
  · rwa [Took, taken_expirePending]
  · rw [archive_expirePending]
    exact List.prefix_append _ _

namespace Consistent

variable {c : Coordinator}

theorem checkScene (h : c.Consistent) : c.checkScene.Consistent where
  archived := by
    rw [archive_checkScene, participants_checkScene]
    exact h.archived
  pending := by
    intro r here
    rw [round_checkScene] at here
    obtain ⟨r, pending, rfl⟩ := Option.map_eq_some_iff.mp here
    rw [participants_checkScene]
    exact h.pending r pending

theorem expirePending (h : c.Consistent) : c.expirePending.Consistent where
  archived := by
    intro r mem
    rw [archive_expirePending, List.mem_append] at mem
    rw [participants_expirePending]
    rcases mem with before | ended
    · exact h.archived r before
    · obtain ⟨r, pending, rfl⟩ := List.mem_map.mp ended
      have unsatisfied := (h.pending r (Option.mem_toList.mp pending)).2
      exact (if_neg (ne_true_of_eq_false unsatisfied)).symm
  pending := by
    intro r here
    rw [round_expirePending] at here
    cases here

end Consistent

/-! ## What the script does to rounds -/

/-- The round that a command opens. -/
def nextRound (c : Coordinator) (s : TaskState) (due : SessionTime) : MatchRound where
  number := c.roundsOpened + 1
  target := targetOf s
  windows := (SceneWindow.ofState s 1, SceneWindow.ofState s 2)
  opened := due
  deadline := .ofNat (due.ms.toNat + (s.int "timelimit").toInt.toNat)
  status := .pending
  selections := .empty
  sceneChecked := false

section script

variable (c : Coordinator) (s : TaskState) (due : SessionTime) (stamp : Stamp)

theorem newRound_eq : c.newRound s due stamp =
    ({ c.expirePending with
        scene := .empty
        nextObject := 1
        round := some (c.nextRound s due)
        roundsOpened := (c.nextRound s due).number },
      [⟨"round-number", .int (Int64.ofNat (c.nextRound s due).number), stamp⟩,
        ⟨"round-status", .text RoundStatus.pending.label, stamp⟩,
        ⟨"round-deadline", .int ⟨(c.nextRound s due).deadline.ms⟩, stamp⟩,
        ⟨"objectcount", .int 0, stamp⟩,
        ⟨selectionKey c.participants.1, .int (-1), stamp⟩,
        ⟨selectionKey c.participants.2, .int (-1), stamp⟩]) := by
  have same := c.expirePending_spec.1
  unfold newRound nextRound
  rw [same.roundsOpened, same.participants]

theorem round_newRound : (c.newRound s due stamp).1.round = some (c.nextRound s due) := by
  rw [newRound_eq]

theorem archive_newRound : (c.newRound s due stamp).1.archive = c.expirePending.archive := rfl

theorem participants_newRound : (c.newRound s due stamp).1.participants = c.participants :=
  c.participants_expirePending

/-- A new round stands behind the others, without selections. -/
theorem rounds_newRound : (c.newRound s due stamp).1.opened = c.opened ++ [c.nextRound s due] ∧
    (c.newRound s due stamp).1.taken = c.taken ++ [.empty] := by
  have opened := c.expirePending_spec.1.opened
  have taken := c.taken_expirePending
  rw [c.expirePending.opened_eq, round_expirePending] at opened
  rw [taken_eq, round_expirePending] at taken
  simp only [Option.toList_none, List.map_nil, List.append_nil] at opened taken
  refine ⟨?_, ?_⟩
  · rw [opened, opened_eq, archive_newRound, round_newRound]
    rfl
  · rw [← taken, taken_eq, archive_newRound, round_newRound]
    rfl

/-- The new round has no selection, and the other rounds keep theirs. -/
theorem took_newRound {n : Nat} {p : ParticipantId} {sel : Selection} :
    (c.newRound s due stamp).1.Took n p sel ↔ c.Took n p sel := by
  rw [Took, Took, (c.rounds_newRound s due stamp).2]
  constructor
  · rintro ⟨selections, here, held⟩
    by_cases before : n < c.taken.length
    · exact ⟨selections, (List.getElem?_append_left before).symm.trans here, held⟩
    · rw [List.getElem?_append_right (Nat.le_of_not_lt before)] at here
      obtain ⟨_, rfl⟩ := List.getElem?_eq_some_iff.mp here
      simp at held
  · rintro ⟨selections, here, held⟩
    obtain ⟨before, -⟩ := List.getElem?_eq_some_iff.mp here
    exact ⟨selections, (List.getElem?_append_left before).trans here, held⟩

theorem extends_newRound : c.Extends (c.newRound s due stamp).1 :=
  .of (fun _ _ _ took => (c.took_newRound s due stamp).mpr took)
    (archive_newRound c s due stamp ▸ c.archive_expirePending ▸ List.prefix_append _ _)

theorem Consistent.newRound {c : Coordinator} (h : c.Consistent) : (c.newRound s due stamp).1.Consistent where
  archived := h.expirePending.archived
  pending := by
    intro r here
    rw [round_newRound] at here
    cases here
    exact ⟨rfl, rfl⟩

/-- The fields that describe the next object and the next round. -/
def readKeys : List FieldKey :=
  ["nextobjecttypeid", "nextobjectimage", "nextobjectposx", "nextobjectposy", "nextobjectsizex", "nextobjectsizey",
    "timelimit", "targetobjectid", "window-1-minx", "window-1-maxx", "window-1-miny", "window-1-maxy",
    "window-2-minx", "window-2-maxx", "window-2-miny", "window-2-maxy"]

section readKeys

variable {s s' : TaskState} (same : ∀ key ∈ readKeys, s.cell? key = s'.cell? key)

include same

theorem get?_readKeys (key : FieldKey) (mem : key ∈ readKeys) : s.get? key = s'.get? key :=
  congrArg (Option.map Cell.value) (same key mem)

theorem int_readKeys (key : FieldKey) (mem : key ∈ readKeys) : s.int key = s'.int key := by
  rw [TaskState.int, TaskState.int, get?_readKeys same key mem]

theorem real_readKeys (key : FieldKey) (mem : key ∈ readKeys) : s.real key = s'.real key := by
  rw [TaskState.real, TaskState.real, get?_readKeys same key mem]

theorem text_readKeys (key : FieldKey) (mem : key ∈ readKeys) : s.text key = s'.text key := by
  rw [TaskState.text, TaskState.text, get?_readKeys same key mem]

theorem window_readKeys : SceneWindow.ofState s 1 = SceneWindow.ofState s' 1 ∧
    SceneWindow.ofState s 2 = SceneWindow.ofState s' 2 := by
  have edge : ∀ key ∈ readKeys, s.real key = s'.real key := real_readKeys same
  refine ⟨?_, ?_⟩
  · simp only [SceneWindow.ofState, edge s!"window-{1}-minx" (by decide), edge s!"window-{1}-maxx" (by decide),
      edge s!"window-{1}-miny" (by decide), edge s!"window-{1}-maxy" (by decide)]
  · simp only [SceneWindow.ofState, edge s!"window-{2}-minx" (by decide), edge s!"window-{2}-maxx" (by decide),
      edge s!"window-{2}-miny" (by decide), edge s!"window-{2}-maxy" (by decide)]

/-- An object is described by fields of the scenario. -/
theorem addObject_congr (c : Coordinator) (stamp : Stamp) : c.addObject s stamp = c.addObject s' stamp := by
  simp only [addObject, int_readKeys same "nextobjecttypeid" (by decide),
    text_readKeys same "nextobjectimage" (by decide), real_readKeys same "nextobjectposx" (by decide),
    real_readKeys same "nextobjectposy" (by decide), real_readKeys same "nextobjectsizex" (by decide),
    real_readKeys same "nextobjectsizey" (by decide)]

/-- A round is described by fields of the scenario. -/
theorem nextRound_congr {c d : Coordinator} (count : c.roundsOpened = d.roundsOpened) (due : SessionTime) :
    c.nextRound s due = d.nextRound s' due := by
  have windows := window_readKeys same
  simp only [nextRound, targetOf, count, windows, int_readKeys same "timelimit" (by decide),
    int_readKeys same "targetobjectid" (by decide)]

end readKeys

/-- Opening a round depends on the round's description only. -/
theorem Alike.newRound {c d : Coordinator} (h : c.Alike d) {s' : TaskState}
    (described : c.nextRound s due = d.nextRound s' due) :
    (c.newRound s due stamp).1.Alike (d.newRound s' due stamp).1 ∧
      (c.newRound s due stamp).2 = (d.newRound s' due stamp).2 := by
  have opened : (c.newRound s due stamp).1.opened = (d.newRound s' due stamp).1.opened := by
    rw [(c.rounds_newRound s due stamp).1, (d.rounds_newRound s' due stamp).1, h.opened, described]
  have participants : (c.newRound s due stamp).1.participants = (d.newRound s' due stamp).1.participants := by
    rw [participants_newRound, participants_newRound, h.participants]
  refine ⟨⟨participants, rfl, rfl, ?_, opened⟩, ?_⟩
  · rw [newRound_eq, newRound_eq, described]
  · rw [newRound_eq, newRound_eq, described, h.participants]

/-- Placing an object depends on the object's description only. -/
theorem Alike.addObject {c d : Coordinator} (h : c.Alike d) {s s' : TaskState}
    (described : c.addObject s stamp = c.addObject s' stamp) :
    (c.addObject s stamp).1.Alike (d.addObject s' stamp).1 ∧
      (c.addObject s stamp).2 = (d.addObject s' stamp).2 := by
  rw [described]
  obtain ⟨participants, scene, next, count, opened⟩ := h
  refine ⟨⟨participants, ?_, ?_, count, opened⟩, ?_⟩ <;>
    simp only [Coordinator.addObject, scene, next]

end script

/-! ## What a selection does to rounds -/

/-- What shows a selection to the participants. -/
def selectionChange (p : ParticipantId) (s : Selection) : FieldChange :=
  ⟨selectionKey p, .int (Int64.ofNat s.object.id.toNat), s.stamp⟩

/-- What shows that a round has been completed. -/
def completedChange (r : MatchRound) : FieldChange :=
  ⟨"round-status", .text RoundStatus.completed.label, r.resolvedAt⟩

/-- The kind of the object with a number. -/
def kindOf? (c : Coordinator) (object : ObjectId) : Option ObjectKind :=
  (c.scene.toList.find? (fun o => o.id = object)).map (·.kind)

/-- A selection that the pending round takes. -/
structure Takes (c : Coordinator) (r : MatchRound) (p : ParticipantId) (s : Selection) : Prop where
  pending : c.round = some r
  covered : r.covers s.stamp = true
  kind : c.kindOf? s.object = some s.kind
  first : r.selections.get? p = none

/-- What a selection can come to. -/
inductive Selects (c : Coordinator) (p : ParticipantId) (object : ObjectId) (stamp : Stamp) :
    Coordinator × Except Fault (List FieldChange) → Prop where
  | refused (fault : Fault) : Selects c p object stamp (c.checkScene, .error fault)
  /-- The participant has selected in this round before. -/
  | again : Selects c p object stamp (c.checkScene, .ok [])
  | taken {r : MatchRound} {kind : ObjectKind} (takes : c.checkScene.Takes r p ⟨object, kind, stamp⟩)
      (unsatisfied : (r.taking p ⟨object, kind, stamp⟩).isSatisfied c.participants = false) :
      Selects c p object stamp
        ({ c.checkScene with round := some (r.taking p ⟨object, kind, stamp⟩) },
          .ok [selectionChange p ⟨object, kind, stamp⟩])
  | completed {r : MatchRound} {kind : ObjectKind} (takes : c.checkScene.Takes r p ⟨object, kind, stamp⟩)
      (satisfied : (r.taking p ⟨object, kind, stamp⟩).isSatisfied c.participants = true) :
      Selects c p object stamp
        (c.checkScene.resolve (r.taking p ⟨object, kind, stamp⟩) .completed,
          .ok [selectionChange p ⟨object, kind, stamp⟩, completedChange (r.taking p ⟨object, kind, stamp⟩)])

theorem get?_taking (r : MatchRound) (p : ParticipantId) (s : Selection) (q : ParticipantId) :
    (r.taking p s).selections.get? q = if p = q then some s else r.selections.get? q :=
  r.selections.get?_insert p q s

theorem selects_select (c : Coordinator) (p : ParticipantId) (object : ObjectId) (stamp : Stamp) :
    c.Selects p object stamp (c.select p object stamp) := by
  unfold select
  dsimp only
  cases pending : c.checkScene.round with
  | none => exact .refused _
  | some r =>
    dsimp only
    split
    · exact .refused _
    · rename_i open_
      have covered : r.covers stamp = true := by
        cases covers : r.covers stamp with
        | true => rfl
        | false =>
          rw [covers] at open_
          simp at open_
      cases found : c.checkScene.scene.toList.find? (fun o => o.id = object) with
      | none => exact .refused _
      | some o =>
        dsimp only
        split
        · exact .again
        · rename_i unselected
          have takes : c.checkScene.Takes r p ⟨object, o.kind, stamp⟩ := by
            refine ⟨pending, covered, ?_, ?_⟩
            · rw [kindOf?, found]
              rfl
            · simpa [OrderedMap.contains] using unselected
          have stands := (get?_taking r p ⟨object, o.kind, stamp⟩ p).trans (if_pos rfl)
          unfold record
          dsimp only
          split
          · rename_i satisfied
            rw [participants_checkScene] at satisfied
            have latest := (MatchRound.latestSelection_eq stands stamp).1
            have done := Selects.completed takes satisfied
            rw [completedChange, ← latest] at done
            exact done
          · rename_i unsatisfied
            rw [participants_checkScene] at unsatisfied
            exact .taken takes (Bool.eq_false_iff.mpr unsatisfied)

section Takes

variable {c d : Coordinator} {r r' : MatchRound} {p : ParticipantId} {s : Selection}

/-- In a coordinator whose last round has taken a selection, that selection stands besides those before. -/
theorem Takes.took_iff (h : c.Takes r p s) (rounds : d.rounds = c.archive.toList ++ [r'])
    (selections : r'.selections = (r.taking p s).selections) {n : Nat} {q : ParticipantId} {t : Selection} :
    d.Took n q t ↔ c.Took n q t ∨ (n = c.archive.toList.length ∧ q = p ∧ t = s) := by
  have before : c.taken = c.archive.toList.map (·.selections) ++ [r.selections] := by
    rw [taken_eq, h.pending]
    rfl
  have after : d.taken = c.archive.toList.map (·.selections) ++ [(r.taking p s).selections] := by
    rw [Coordinator.taken, rounds, List.map_append, ← selections]
    rfl
  rw [Took, Took, before, after]
  rcases Nat.lt_trichotomy n c.archive.toList.length with earlier | rfl | later
  · have place : n < (c.archive.toList.map (·.selections)).length := by rwa [List.length_map]
    rw [List.getElem?_append_left place, List.getElem?_append_left place]
    constructor
    · exact Or.inl
    · rintro (stands | ⟨same, -⟩)
      · exact stands
      · omega
  · have last : ∀ m : OrderedMap ParticipantId Selection,
        (c.archive.toList.map (·.selections) ++ [m])[c.archive.toList.length]? = some m := by
      intro m
      rw [List.getElem?_append_right (Nat.le_of_eq (List.length_map _)), List.length_map, Nat.sub_self]
      rfl
    rw [last, last]
    simp only [Option.some.injEq, exists_eq_left', true_and]
    rw [get?_taking]
    by_cases own : p = q
    · rw [if_pos own, ← own, h.first]
      constructor
      · exact fun stands => Or.inr ⟨rfl, (Option.some.inj stands).symm⟩
      · rintro (stands | ⟨-, rfl⟩)
        · cases stands
        · rfl
    · rw [if_neg own]
      constructor
      · exact Or.inl
      · rintro (stands | ⟨same, -⟩)
        · exact stands
        · exact absurd same.symm own
  · have beyond : ∀ m : OrderedMap ParticipantId Selection,
        (c.archive.toList.map (·.selections) ++ [m])[n]? = none := by
      intro m
      rw [List.getElem?_eq_none]
      simp only [List.length_append, List.length_map, List.length_singleton]
      omega
    rw [beyond, beyond]
    constructor
    · rintro ⟨_, impossible, _⟩
      cases impossible
    · rintro (⟨_, impossible, _⟩ | ⟨same, -⟩)
      · cases impossible
      · omega

end Takes

namespace Takes

variable {c : Coordinator} {r : MatchRound} {p : ParticipantId} {s : Selection}

/-- The round with the selection, still pending. -/
theorem alike_taken (h : c.checkScene.Takes r p s) :
    c.Alike { c.checkScene with round := some (r.taking p s) } := by
  refine c.alike_checkScene.trans ⟨rfl, rfl, rfl, rfl, ?_⟩
  rw [opened_eq, opened_eq, h.pending]
  rfl

/-- The round with the selection, archived. -/
theorem alike_completed (h : c.checkScene.Takes r p s) :
    c.Alike (c.checkScene.resolve (r.taking p s) .completed) := by
  refine c.alike_checkScene.trans ⟨rfl, rfl, rfl, rfl, ?_⟩
  rw [opened_eq, Coordinator.opened, rounds_resolve, List.map_append, h.pending]
  rfl

theorem archive_completed (c : Coordinator) (r : MatchRound) :
    (c.checkScene.resolve r .completed).archive.toList =
      c.archive.toList ++ [{ r with status := .completed }] := by
  rw [resolve, Fifo.toList_push, archive_checkScene]

end Takes

namespace Selects

variable {c : Coordinator} {p : ParticipantId} {object : ObjectId} {stamp : Stamp}
  {out : Coordinator × Except Fault (List FieldChange)}

theorem alike (h : c.Selects p object stamp out) : c.Alike out.1 := by
  cases h with
  | refused | again => exact c.alike_checkScene
  | taken takes => exact takes.alike_taken
  | completed takes => exact takes.alike_completed

/-- What stands after a selection has stood before, or is that selection, in the round that was pending. -/
theorem took_iff (h : c.Selects p object stamp out) {n : Nat} {q : ParticipantId} {t : Selection}
    (stands : out.1.Took n q t) : c.Took n q t ∨ (n + 1 = c.opened.length ∧ q = p ∧ t.object = object ∧
      t.stamp = stamp ∧ c.kindOf? object = some t.kind) := by
  have before : c.checkScene.Took n q t → c.Took n q t := by
    rw [Took, Took, taken_checkScene]
    exact id
  have new : ∀ {r kind}, c.checkScene.Takes r p ⟨object, kind, stamp⟩ →
      n = c.checkScene.archive.toList.length ∧ q = p ∧ t = ⟨object, kind, stamp⟩ →
      n + 1 = c.opened.length ∧ q = p ∧ t.object = object ∧ t.stamp = stamp ∧
        c.kindOf? object = some t.kind := by
    rintro r kind takes ⟨rfl, rfl, rfl⟩
    have shown : c.kindOf? object = c.checkScene.kindOf? object := by
      rw [kindOf?, kindOf?, c.alike_checkScene.scene]
    refine ⟨?_, rfl, rfl, rfl, shown.trans takes.kind⟩
    rw [c.alike_checkScene.opened, opened_eq, takes.pending]
    simp
  cases h with
  | refused | again => exact Or.inl (before stands)
  | taken takes =>
    exact ((takes.took_iff rfl rfl).mp stands).imp before (new takes)
  | completed takes =>
    exact ((takes.took_iff (rounds_resolve _ _ _) rfl).mp stands).imp before (new takes)

theorem extends_ (h : c.Selects p object stamp out) : c.Extends out.1 := by
  have before : ∀ n q t, c.Took n q t → c.checkScene.Took n q t := c.extends_checkScene.took
  cases h with
  | refused | again => exact c.extends_checkScene
  | taken takes =>
    refine .of (fun n q t took => (takes.took_iff rfl rfl).mpr (Or.inl (before n q t took))) ?_
    exact c.archive_checkScene ▸ List.prefix_refl _
  | completed takes =>
    refine .of (fun n q t took => (takes.took_iff (rounds_resolve _ _ _) rfl).mpr (Or.inl (before n q t took))) ?_
    exact Takes.archive_completed c _ ▸ List.prefix_append _ _

theorem consistent (h : c.Selects p object stamp out) (sound : c.Consistent) : out.1.Consistent := by
  cases h with
  | refused | again => exact sound.checkScene
  | taken takes unsatisfied =>
    refine ⟨sound.checkScene.archived, fun r here => ?_⟩
    cases here
    exact ⟨(sound.checkScene.pending _ takes.pending).1, c.participants_checkScene ▸ unsatisfied⟩
  | completed takes satisfied =>
    refine ⟨fun r mem => ?_, fun r here => absurd here.symm (Option.some_ne_none r)⟩
    rw [Takes.archive_completed, List.mem_append, List.mem_singleton] at mem
    change r.status = r.outcome c.checkScene.participants
    rw [participants_checkScene]
    rcases mem with before | rfl
    · exact sound.archived r before
    · exact (if_pos satisfied).symm

/-- A selection that leads to changes stands. -/
theorem exists_took (h : c.Selects p object stamp out) (some : out.2.toOption.getD [] ≠ []) :
    ∃ n t, out.1.Took n p t ∧ t.object = object ∧ t.stamp = stamp := by
  cases h with
  | refused | again => exact absurd rfl some
  | taken takes =>
    exact ⟨_, _, (takes.took_iff rfl rfl).mpr (Or.inr ⟨rfl, rfl, rfl⟩), rfl, rfl⟩
  | completed takes =>
    exact ⟨_, _, (takes.took_iff (rounds_resolve _ _ _) rfl).mpr (Or.inr ⟨rfl, rfl, rfl⟩), rfl, rfl⟩

/-- The changes show the selection, and that the round has been completed if it has. -/
theorem changes (h : c.Selects p object stamp out) :
    (∀ s, out.1.Completed s → c.Completed s ∨
        ⟨"round-status", .text RoundStatus.completed.label, s⟩ ∈ out.2.toOption.getD []) ∧
      ∀ d ∈ out.2.toOption.getD [], d.key = selectionKey p ∨
        (out.1.Completed d.stamp ∧ d = ⟨"round-status", .text RoundStatus.completed.label, d.stamp⟩) := by
  have before : ∀ s, c.checkScene.Completed s → c.Completed s := by
    intro s
    rw [Completed, Completed, archive_checkScene]
    exact id
  cases h with
  | refused | again => exact ⟨fun s done => Or.inl (before s done), fun d mem => absurd mem List.not_mem_nil⟩
  | taken takes =>
    refine ⟨fun s done => Or.inl (before s done), fun d mem => Or.inl ?_⟩
    rw [List.mem_singleton.mp mem]
    rfl
  | @completed r kind takes =>
    constructor
    · rintro s ⟨r', mem, done, rfl⟩
      rw [Takes.archive_completed, List.mem_append, List.mem_singleton] at mem
      rcases mem with old | rfl
      · exact Or.inl ⟨r', old, done, rfl⟩
      · exact Or.inr (List.mem_cons_of_mem _ List.mem_cons_self)
    · rintro d (mem : d ∈ [_, _])
      simp only [List.mem_cons, List.not_mem_nil, or_false] at mem
      rcases mem with rfl | rfl
      · exact Or.inl rfl
      · refine Or.inr ⟨⟨{ r.taking p ⟨object, kind, stamp⟩ with status := .completed }, ?_, rfl, rfl⟩, rfl⟩
        rw [Takes.archive_completed]
        exact List.mem_append_right _ List.mem_cons_self

end Selects

/-! ## The end of a round -/

/-- The fields that show how rounds went: a round that runs out of its time writes them. -/
def outcomeKeys : List FieldKey := ["round-status", "score"]

/-- What shows that a round has run out of its time. -/
def expiredChanges (r : MatchRound) (s : TaskState) : List FieldChange :=
  [⟨"round-status", .text RoundStatus.expired.label, .scripted r.deadline⟩,
    ⟨"score", .int (s.int "score" - matchTimeoutPenalty), .scripted r.deadline⟩]

theorem tick_eq (c : Coordinator) (now : SessionTime) (s : TaskState) : c.tick now s =
    match c.round.filter (fun r => r.status = .pending ∧ r.deadline ≤ now) with
    | some r => (c.checkScene.expirePending, expiredChanges r s)
    | none => (c, []) := by
  unfold tick
  cases c.round with
  | none => rfl
  | some r =>
    rw [Option.filter_some]
    by_cases due : r.status = .pending ∧ r.deadline ≤ now
    · rw [if_pos (decide_eq_true due)]
      exact if_pos due
    · rw [if_neg (ne_true_of_eq_false (decide_eq_false due))]
      exact if_neg due

end Coordinator

end Tandem
