import Mathlib.Data.List.Induction
import Tandem.Proofs.Matching.Lifecycle
import Tandem.Proofs.Matching.Mirror
/-!
# Where kinds come from

A script names a kind twice: in the field that describes the next object, when it places an object, and in the field
that names the target, when it opens a round.  The coordinator compares the two when both participants have selected.
What lies between are kinds of objects and of targets, which have fewer values than the fields have.

`Battery.Traced` says of a run where its kinds have come from: each object that is in the scene has been placed in the
present round, and each selection is of an object that was placed in its round, with the kind that the field had then
(`Battery.PlacedIn`).  It is kept by whatever happens to a battery (`Traced.perform`), as a selection finds its object
in the scene.  So a round that is completed has got objects of the kind that it was opened for, as far as kinds can
tell the values of the fields apart (`Battery.completed_kinds`).
-/

namespace Tandem

/-- A field value as a kind: what is below zero counts as zero, and higher digits are cut off. -/
def ObjectKind.ofValue (value : Int) : ObjectKind := ⟨UInt32.ofNat value.toNat⟩

/-- Values that kinds can hold are told apart, but for those below zero. -/
theorem ObjectKind.ofValue_inj {v w : Int} (nonneg : 0 ≤ w) (small : v < UInt32.size) (small' : w < UInt32.size)
    (same : ofValue v = ofValue w) : max v 0 = w := by
  have size : UInt32.size = 2 ^ 32 := rfl
  have numbers := congrArg (fun kind => kind.id.toNat) same
  simp only [ofValue] at numbers
  rw [UInt32.toNat_ofNat_of_lt' (by omega), UInt32.toNat_ofNat_of_lt' (by omega)] at numbers
  omega

/-! ## Rounds are only added -/

namespace Coordinator

/-- When the time of a round comes to its end, nothing is selected and nothing is opened. -/
theorem tick_spec (c : Coordinator) (now : SessionTime) (s : TaskState) :
    c.Alike (c.tick now s).1 ∧ (c.tick now s).1.taken = c.taken := by
  rw [tick_eq]
  split
  · exact ⟨c.alike_checkScene.trans c.checkScene.expirePending_spec.1,
      c.checkScene.taken_expirePending.trans c.taken_checkScene⟩
  · exact ⟨.refl c, rfl⟩

/-- Rounds are opened behind those that have been opened before. -/
theorem opened_call (c : Coordinator) (step : Call) : c.opened <+: (c.call step).opened := by
  have kept : ∀ {d : Coordinator}, c.Alike d → c.opened <+: d.opened := fun alike =>
    alike.opened ▸ List.prefix_refl _
  cases step with
  | newRound s due stamp => exact (c.rounds_newRound s due stamp).1 ▸ List.prefix_append _ _
  | addObject s stamp => exact List.prefix_refl _
  | select p object stamp => exact kept (c.selects_select p object stamp).alike
  | tick now s => exact kept (c.tick_spec now s).1

theorem opened_callAll (c : Coordinator) (calls : List Call) : c.opened <+: (c.callAll calls).opened := by
  induction calls generalizing c with
  | nil => exact List.prefix_refl _
  | cons step rest ih => exact (c.opened_call step).trans (ih (c.call step))

theorem Orderly.length_opened {c : Coordinator} (h : c.Orderly) : c.opened.length = c.roundsOpened := by
  have count := congrArg List.length h.numbers
  rwa [List.length_map, List.length_range'] at count

/-- The selections of an archived round stand at its place. -/
theorem took_archived {c : Coordinator} {n : Nat} {r : MatchRound} (here : c.archive.toList[n]? = some r)
    {p : ParticipantId} {s : Selection} (held : r.selections.get? p = some s) : c.Took n p s := by
  obtain ⟨place, -⟩ := List.getElem?_eq_some_iff.mp here
  refine ⟨r.selections, ?_, held⟩
  rw [taken, rounds, List.getElem?_map, List.getElem?_append_left place, here]
  rfl

/-- An archived round stands at the place that its number tells. -/
theorem Orderly.exists_place {c : Coordinator} (h : c.Orderly) {r : MatchRound} (archived : r ∈ c.archive.toList) :
    ∃ i, r.number = i + 1 ∧ c.archive.toList[i]? = some r := by
  obtain ⟨i, here⟩ := List.getElem?_of_mem archived
  obtain ⟨place, -⟩ := List.getElem?_eq_some_iff.mp here
  have numbers := congrArg (·[i]?) h.numbers_split.1
  simp only [List.getElem?_map, here, Option.map_some] at numbers
  rw [List.getElem?_range' (by rwa [Fifo.size_eq_length])] at numbers
  have number := Option.some.inj numbers
  exact ⟨i, by omega, here⟩

/-- In a completed round the participants have agreed. -/
theorem Orderly.isAgreed {c : Coordinator} (h : c.Orderly) {r : MatchRound} (archived : r ∈ c.archive.toList)
    (completed : r.status = .completed) : r.IsAgreed c.participants := by
  have outcome := h.consistent.archived r archived
  rw [completed, MatchRound.outcome] at outcome
  refine (r.isSatisfied_iff c.participants).mp (Decidable.byContradiction fun unsatisfied => ?_)
  rw [if_neg unsatisfied] at outcome
  cases outcome

end Coordinator

/-! ## What happens to a battery -/

/-- What can happen to a battery: a command of the script, an input of either participant, the passing of time, and
values from elsewhere. -/
inductive BatteryEvent where
  | run (c : ScenarioCommand)
  | input (e : InputEvent) (stamp : Stamp) (origin : Origin)
  | expire (now : SessionTime)
  | apply (m : Mutation)

namespace Battery

/-- The battery after an event. -/
def perform (b : Battery) : BatteryEvent → Battery
  | .run c => (b.run c).1
  | .input e stamp origin => (b.applyInput e stamp origin).1
  | .expire now => (b.expireRounds now).1
  | .apply m => (b.apply m).1

/-- The battery after several events. -/
def performAll (b : Battery) (events : List BatteryEvent) : Battery := events.foldl perform b

theorem performAll_concat (b : Battery) (events : List BatteryEvent) (e : BatteryEvent) :
    b.performAll (events ++ [e]) = (b.performAll events).perform e := List.foldl_append

/-- What an event comes to for the coordinator. -/
inductive Moves (b : Battery) (e : BatteryEvent) : Coordinator → Prop where
  | rests : Moves b e b.matching
  | opens {c : ScenarioCommand} {t : TaskId} (event : e = .run c) (payload : c.payload = .act (.task t) .newRound) :
      Moves b e (b.matching.newRound (b.store.read t) c.due c.stamp).1
  | places {c : ScenarioCommand} {t : TaskId} (event : e = .run c) (payload : c.payload = .act (.task t) .addObject) :
      Moves b e (b.matching.addObject (b.store.read t) c.stamp).1
  | selects (p : ParticipantId) (object : ObjectId) (stamp : Stamp) : Moves b e (b.matching.select p object stamp).1
  | expires (now : SessionTime) (s : TaskState) : Moves b e (b.matching.tick now s).1

theorem moves_run (b : Battery) (c : ScenarioCommand) : b.Moves (.run c) (b.scripted c).1 := by
  obtain ⟨dueSecond, priority, payload, line, index⟩ := c
  cases payload with
  | act target a =>
    cases target with
    | session => exact .rests
    | task t =>
      by_cases opens : a = .newRound
      · subst opens
        exact .opens rfl rfl
      · by_cases adds : a = .addObject
        · subst adds
          exact .places rfl rfl
        · rw [scripted_act _ _ _ _ _ _ ⟨adds, opens⟩]
          exact .rests
  | set target key raw => cases target <;> exact .rests

theorem moves_perform (b : Battery) (e : BatteryEvent) : b.Moves e (b.perform e).matching := by
  cases e with
  | run c =>
    show b.Moves _ (b.run c).1.matching
    rw [matching_run]
    exact b.moves_run c
  | input e stamp origin =>
    show b.Moves _ (b.applyInput e stamp origin).1.matching
    rw [applyInput_fst]
    split
    · show b.Moves _ (b.inputEffect e stamp).1
      unfold inputEffect
      split
      · exact .selects _ _ _
      · exact .rests
      · exact .rests
    · exact .rests
  | expire now =>
    show b.Moves _ (b.expireRounds now).1.matching
    unfold expireRounds
    dsimp only
    split
    · exact .expires now _
    · exact .expires now _
  | apply m => exact .rests

/-- Events come to calls on the coordinator. -/
theorem exists_callAll (b : Battery) (events : List BatteryEvent) :
    ∃ calls, (b.performAll events).matching = b.matching.callAll calls := by
  have one : ∀ (b : Battery) (e : BatteryEvent), ∃ calls, (b.perform e).matching = b.matching.callAll calls := by
    intro b e
    have moved := b.moves_perform e
    generalize (b.perform e).matching = c at moved
    cases moved with
    | rests => exact ⟨[], rfl⟩
    | opens => exact ⟨[.newRound _ _ _], rfl⟩
    | places => exact ⟨[.addObject _ _], rfl⟩
    | selects p object stamp => exact ⟨[.select p object stamp], rfl⟩
    | expires now s => exact ⟨[.tick now s], rfl⟩
  induction events generalizing b with
  | nil => exact ⟨[], rfl⟩
  | cons e rest ih =>
    obtain ⟨first, here⟩ := one b e
    obtain ⟨later, there⟩ := ih (b.perform e)
    refine ⟨first ++ later, ?_⟩
    rw [Coordinator.callAll, List.foldl_append]
    exact there.trans (congrArg (Coordinator.callAll · later) here)

/-! ## Where an object has come from -/

/-- The kind of the next object, as the fields of a task describe it. -/
def nextKind (b : Battery) (t : TaskId) : Int := ((b.store.read t).int "nextobjecttypeid").toInt

/-- The target of the next round, as the fields of a task describe it. -/
def nextTarget (b : Battery) (t : TaskId) : Int := ((b.store.read t).int "targetobjectid").toInt

/-- A command places an object under a number that no object of the scene has yet, while the field for the kind of the
next object has a value. -/
structure Places (b : Battery) (c : ScenarioCommand) (object : ObjectId) (value : Int) : Prop where
  fresh : b.matching.kindOf? object = none
  placed : ((b.run c).1.matching.kindOf? object).isSome = true
  described : ∃ t, c.payload = .act (.task t) .addObject ∧ b.nextKind t = value

/-- In a run, an object has been placed while a number of rounds had been opened, and the field for its kind had a
value. -/
def PlacedIn (start : Battery) (events : List BatteryEvent) (rounds : Nat) (object : ObjectId) (value : Int) : Prop :=
  ∃ n c, events[n]? = some (.run c) ∧ (start.performAll (events.take n)).matching.opened.length = rounds ∧
    (start.performAll (events.take n)).Places c object value

theorem PlacedIn.concat {start : Battery} {events : List BatteryEvent} {rounds : Nat} {object : ObjectId} {value : Int}
    (h : PlacedIn start events rounds object value) (e : BatteryEvent) :
    PlacedIn start (events ++ [e]) rounds object value := by
  obtain ⟨n, c, here, opened, places⟩ := h
  obtain ⟨place, -⟩ := List.getElem?_eq_some_iff.mp here
  have same : (events ++ [e]).take n = events.take n := List.take_append_of_le_length (Nat.le_of_lt place)
  refine ⟨n, c, (List.getElem?_append_left place).trans here, ?_, ?_⟩
  · rwa [same]
  · rwa [same]

/-- In a run, the objects of the scene have been placed in the present round, and those that have been selected have been
placed in the round of the selection; their kinds are those of the field. -/
structure Traced (start : Battery) (events : List BatteryEvent) : Prop where
  scene : ∀ object kind, (start.performAll events).matching.kindOf? object = some kind → ∃ value,
    PlacedIn start events (start.performAll events).matching.opened.length object value ∧ kind = .ofValue value
  took : ∀ n p s, (start.performAll events).matching.Took n p s → ∃ value,
    PlacedIn start events (n + 1) s.object value ∧ s.kind = .ofValue value

end Battery

namespace Coordinator

/-- An object that is placed is found under the next number, if no other is. -/
theorem kindOf?_addObject (c : Coordinator) (s : TaskState) (stamp : Stamp) (object : ObjectId) :
    (c.addObject s stamp).1.kindOf? object = (c.kindOf? object).or
      (if (⟨c.nextObject⟩ : ObjectId) = object then some (ObjectKind.ofValue (s.int "nextobjecttypeid").toInt) else none) := by
  unfold kindOf? addObject
  dsimp only
  rw [Fifo.toList_push, List.find?_append, List.find?_singleton]
  cases c.scene.toList.find? (fun o => o.id = object) with
  | some o => rfl
  | none =>
    by_cases next : (⟨c.nextObject⟩ : ObjectId) = object
    · simp [next, ObjectKind.ofValue]
    · simp [next]

end Coordinator

namespace Battery

/-- An object of the scene after an event was in the scene before, or has just been placed. -/
theorem kindOf?_perform {b : Battery} {e : BatteryEvent} {object : ObjectId} {kind : ObjectKind}
    (found : (b.perform e).matching.kindOf? object = some kind) :
    (b.perform e).matching.opened.length = b.matching.opened.length ∧ (b.matching.kindOf? object = some kind ∨
      ∃ c value, e = .run c ∧ b.Places c object value ∧ kind = .ofValue value) := by
  have moved := b.moves_perform e
  have alike : ∀ {d : Coordinator}, b.matching.Alike d → d.kindOf? object = some kind →
      d.opened.length = b.matching.opened.length ∧ (b.matching.kindOf? object = some kind ∨
        ∃ c value, e = .run c ∧ b.Places c object value ∧ kind = .ofValue value) := by
    intro d alike found
    rw [← Coordinator.kindOf?_congr alike.scene] at found
    exact ⟨congrArg List.length alike.opened.symm, Or.inl found⟩
  generalize after : (b.perform e).matching = d at moved found
  cases moved with
  | rests => exact ⟨rfl, Or.inl found⟩
  | opens => cases found
  | @places c t event payload =>
    refine ⟨rfl, ?_⟩
    have placed := found
    rw [Coordinator.kindOf?_addObject] at found
    cases before : b.matching.kindOf? object with
    | some kind' =>
      rw [before] at found
      exact Or.inl found
    | none =>
      rw [before, Option.none_or] at found
      split at found
      · subst event
        refine Or.inr ⟨c, b.nextKind t, rfl, ⟨before, ?_, t, payload, rfl⟩, (Option.some.inj found).symm⟩
        show ((b.perform (.run c)).matching.kindOf? object).isSome = true
        rw [after, placed]
        rfl
      · cases found
  | selects p object' stamp => exact alike (b.matching.selects_select p object' stamp).alike found
  | expires now s => exact alike (b.matching.tick_spec now s).1 found

/-- A selection that stands after an event stood before, or is of an object in the scene. -/
theorem took_perform {b : Battery} {e : BatteryEvent} {n : Nat} {p : ParticipantId} {s : Selection}
    (took : (b.perform e).matching.Took n p s) :
    b.matching.Took n p s ∨ (n + 1 = b.matching.opened.length ∧ b.matching.kindOf? s.object = some s.kind) := by
  have moved := b.moves_perform e
  generalize (b.perform e).matching = d at moved took
  cases moved with
  | rests => exact Or.inl took
  | opens => exact Or.inl ((b.matching.took_newRound _ _ _).mp took)
  | places => exact Or.inl took
  | selects q object stamp =>
    rcases (b.matching.selects_select q object stamp).took_iff took with before | ⟨last, -, named, -, kind⟩
    · exact Or.inl before
    · exact Or.inr ⟨last, named ▸ kind⟩
  | expires now t =>
    rw [Coordinator.Took, (b.matching.tick_spec now t).2] at took
    exact Or.inl took

theorem traced_nil (capacity : Nat) (participants : ParticipantId × ParticipantId) :
    Traced (.new capacity participants) [] where
  scene _ _ found := by cases found
  took n p s took := by
    obtain ⟨selections, here, -⟩ := took
    cases here

/-- **What happens to a battery leaves traces**: the objects that come into the scene, and the selections that are taken,
are accounted for. -/
theorem Traced.perform {start : Battery} {events : List BatteryEvent} (h : Traced start events) (e : BatteryEvent) :
    Traced start (events ++ [e]) where
  scene object kind found := by
    rw [performAll_concat] at found ⊢
    obtain ⟨opened, before | ⟨c, value, rfl, places, named⟩⟩ := kindOf?_perform found
    · obtain ⟨value, placed, named⟩ := h.scene object kind before
      exact ⟨value, opened ▸ placed.concat e, named⟩
    · refine ⟨value, ⟨events.length, c, List.getElem?_concat_length, ?_, ?_⟩, named⟩
      · rw [List.take_left, opened]
      · rw [List.take_left]
        exact places
  took n p s took := by
    rw [performAll_concat] at took
    rcases took_perform took with before | ⟨last, found⟩
    · obtain ⟨value, placed, named⟩ := h.took n p s before
      exact ⟨value, placed.concat e, named⟩
    · -- The selection is of an object that was in the scene, and so of one that had been placed in this round.
      obtain ⟨value, placed, named⟩ := h.scene s.object s.kind found
      exact ⟨value, last ▸ placed.concat e, named⟩

theorem traced (capacity : Nat) (participants : ParticipantId × ParticipantId) (events : List BatteryEvent) :
    Traced (.new capacity participants) events := by
  induction events using List.reverseRecOn with
  | nil => exact traced_nil capacity participants
  | append_singleton events e ih => exact ih.perform e

/-! ## Completed rounds -/

/-- After a command that opens a round, that round stands behind those that were opened before. -/
theorem opened_performAll {b : Battery} {c : ScenarioCommand} {t : TaskId} (opens : c.payload = .act (.task t) .newRound)
    (after : List BatteryEvent) : ((b.perform (.run c)).performAll after).matching.opened[b.matching.opened.length]? =
      some (b.matching.nextRound (b.store.read t) c.due) := by
  have matching : (b.perform (.run c)).matching = (b.matching.newRound (b.store.read t) c.due c.stamp).1 := by
    show (b.run c).1.matching = _
    obtain ⟨dueSecond, priority, payload, line, index⟩ := c
    subst opens
    exact matching_run b _
  obtain ⟨calls, later⟩ := exists_callAll (b.perform (.run c)) after
  obtain ⟨more, all⟩ := Coordinator.opened_callAll (b.perform (.run c)).matching calls
  rw [later, ← all, matching, (b.matching.rounds_newRound _ _ _).1, List.append_assoc,
    List.getElem?_append_right (Nat.le_refl _), Nat.sub_self]
  rfl

/-- Once it is in the archive, the round that a command has opened has the target that the field described then. -/
theorem target_archived {b : Battery} {c : ScenarioCommand} {t : TaskId} (opens : c.payload = .act (.task t) .newRound)
    (after : List BatteryEvent) (nonneg : 0 ≤ b.nextTarget t) {r : MatchRound}
    (here : ((b.perform (.run c)).performAll after).matching.archive.toList[b.matching.opened.length]? = some r) :
    r.target = some (.ofValue (b.nextTarget t)) := by
  obtain ⟨place, -⟩ := List.getElem?_eq_some_iff.mp here
  have there := opened_performAll (b := b) opens after
  rw [Coordinator.opened_eq, List.getElem?_append_left (by rwa [List.length_map]), List.getElem?_map, here] at there
  have named : r.target = Coordinator.targetOf (b.store.read t) := congrArg MatchRound.target (Option.some.inj there)
  rw [named]
  exact if_neg (Int.not_lt.mpr nonneg)

theorem orderly_performAll (capacity : Nat) (participants : ParticipantId × ParticipantId)
    (events : List BatteryEvent) :
    ((new capacity participants).performAll events).matching.Orderly ∧
      ((new capacity participants).performAll events).matching.participants = participants := by
  obtain ⟨calls, same⟩ := exists_callAll (new capacity participants) events
  rw [same]
  exact ⟨(Coordinator.orderly_new participants).callAll calls, Coordinator.participants_callAll _ calls⟩

/-- **Only the target kind completes a round.**  Whatever happens to a battery, a round that is opened while the target
has a value from zero on is completed only if what either participant has selected in it was placed in that round while
the kind of the next object had that value.  A kind below zero counts as zero, and values beyond those of kinds are not
spoken of. -/
theorem completed_kinds {capacity : Nat} {participants : ParticipantId × ParticipantId}
    {before after : List BatteryEvent} {c : ScenarioCommand} {t : TaskId} {b d : Battery}
    (first : b = (new capacity participants).performAll before) (opens : c.payload = .act (.task t) .newRound)
    (last : d = (new capacity participants).performAll (before ++ .run c :: after)) (nonneg : 0 ≤ b.nextTarget t)
    (small : b.nextTarget t < UInt32.size) {r : MatchRound} (archived : r ∈ d.matching.archive.toList)
    (number : r.number = b.matching.roundsOpened + 1) (completed : r.status = .completed) :
    ∀ p ∈ [participants.1, participants.2], ∃ s value, r.selections.get? p = some s ∧
      PlacedIn (new capacity participants) (before ++ .run c :: after) r.number s.object value ∧
      (value < UInt32.size → max value 0 = b.nextTarget t) := by
  obtain ⟨orderly, same⟩ := orderly_performAll capacity participants (before ++ .run c :: after)
  have earlier := (orderly_performAll capacity participants before).1.length_opened
  have trace := traced capacity participants (before ++ .run c :: after)
  have later : d = (b.perform (.run c)).performAll after := by
    rw [last, first, performAll, List.foldl_append]
    rfl
  rw [← first] at earlier
  rw [← last] at orderly same
  -- The place of the round in the archive is told by its number, so it is the round that the command has opened.
  obtain ⟨i, numbered, here⟩ := orderly.exists_place archived
  have place : i = b.matching.opened.length := by omega
  have target : r.target = some (.ofValue (b.nextTarget t)) := target_archived opens after nonneg (later ▸ place ▸ here)
  obtain ⟨s, s', left, right, kinds⟩ := orderly.isAgreed archived completed
  rw [same] at left right
  rw [target] at kinds
  have settled : ∀ {p : ParticipantId} {s : Selection}, r.selections.get? p = some s →
      s.kind = .ofValue (b.nextTarget t) → ∃ s value, r.selections.get? p = some s ∧
        PlacedIn (new capacity participants) (before ++ .run c :: after) r.number s.object value ∧
        (value < UInt32.size → max value 0 = b.nextTarget t) := by
    intro p s held kind
    obtain ⟨value, placed, named⟩ := trace.took i p s (last ▸ Coordinator.took_archived here held)
    exact ⟨s, value, held, numbered ▸ placed, fun small' =>
      ObjectKind.ofValue_inj nonneg small' small (named.symm.trans kind)⟩
  intro p mem
  simp only [List.mem_cons, List.not_mem_nil, or_false] at mem
  rcases mem with rfl | rfl
  · exact settled left kinds.1
  · exact settled right kinds.2

/-! ### A kind below zero -/

/-- The matching task is started, and the target is the kind zero. -/
def targetSet : List BatteryEvent :=
  [.run ⟨0, 0, .act (.task .matching) .start, 1, 0⟩, .run ⟨0, 0, .set (.task .matching) "targetobjectid" "0", 2, 1⟩]

/-- The command that opens the round. -/
def opensRound : ScenarioCommand := ⟨0, 0, .act (.task .matching) .newRound, 3, 2⟩

/-- A participant selects the first object. -/
def selectsFirst (p : ParticipantId) (time : SessionTime) : BatteryEvent :=
  .input (.captured p time (.matchSelect ⟨1⟩)) ⟨time, 0, .participant p⟩ (.localInput p)

/-- An object of a kind below zero is placed, and both participants select it. -/
def objectSelected : List BatteryEvent :=
  [.run ⟨0, 0, .set (.task .matching) "nextobjecttypeid" "-1", 4, 3⟩, .run ⟨0, 0, .act (.task .matching) .addObject, 5, 4⟩,
    selectsFirst ⟨1⟩ ⟨100⟩, selectsFirst ⟨2⟩ ⟨200⟩]

/-- The whole of the round. -/
def negativeRun : List BatteryEvent := targetSet ++ .run opensRound :: objectSelected

/-- One command places an object, the fifth. -/
theorem place_of_negativeRun {n : Nat} {c : ScenarioCommand} {t : TaskId} (here : negativeRun[n]? = some (.run c))
    (payload : c.payload = .act (.task t) .addObject) : n = 4 ∧ t = .matching := by
  match n, here with
  | 0, here | 1, here | 2, here | 3, here =>
    cases here
    cases payload
  | 4, here =>
    cases here
    cases payload
    exact ⟨rfl, rfl⟩
  | 5, here | 6, here => cases here
  | n + 7, here => cases here

/-- The round is completed; what the fields were when it was opened, and when the object was placed. -/
theorem facts_negativeRun {b a d : Battery} (first : b = (new 0 (⟨1⟩, ⟨2⟩)).performAll targetSet)
    (adds : a = (new 0 (⟨1⟩, ⟨2⟩)).performAll (negativeRun.take 4))
    (last : d = (new 0 (⟨1⟩, ⟨2⟩)).performAll negativeRun) :
    (∃ r ∈ d.matching.archive.toList, r.number = b.matching.roundsOpened + 1 ∧ r.status = .completed) ∧
      b.nextTarget .matching = 0 ∧ a.nextKind .matching = -1 := by
  have facts : d.matching.archive.toList.map (fun r => (r.number, r.status)) = [(1, .completed)] ∧
      b.nextTarget .matching = 0 ∧ a.nextKind .matching = -1 ∧ b.matching.roundsOpened = 0 := by
    rw [first, adds, last]
    decide +kernel
  obtain ⟨archive, target, kind, none⟩ := facts
  obtain ⟨r, rest, same, described, -⟩ := List.map_eq_cons_iff.mp archive
  exact ⟨⟨r, same ▸ List.mem_cons_self, none ▸ congrArg Prod.fst described, congrArg Prod.snd described⟩, target, kind⟩

/-- The kind of the object counts as zero. -/
theorem completed_kinds_negativeRun : ∃ r ∈ ((new 0 (⟨1⟩, ⟨2⟩)).performAll negativeRun).matching.archive.toList,
    r.status = .completed ∧ ∀ p ∈ [(⟨1⟩ : ParticipantId), ⟨2⟩], ∃ s value, r.selections.get? p = some s ∧
      PlacedIn (new 0 (⟨1⟩, ⟨2⟩)) negativeRun r.number s.object value ∧ (value < UInt32.size → max value 0 = 0) := by
  obtain ⟨b, first⟩ : ∃ b, b = (new 0 (⟨1⟩, ⟨2⟩)).performAll targetSet := ⟨_, rfl⟩
  obtain ⟨d, last⟩ : ∃ d, d = (new 0 (⟨1⟩, ⟨2⟩)).performAll negativeRun := ⟨_, rfl⟩
  obtain ⟨⟨r, archived, number, completed⟩, target, -⟩ := facts_negativeRun first rfl last
  have nonneg : 0 ≤ b.nextTarget .matching := Int.le_of_eq target.symm
  have small : b.nextTarget .matching < UInt32.size := by
    rw [target]
    decide
  have kinds := completed_kinds (c := opensRound) (t := .matching) first rfl last nonneg small archived number completed
  rw [target] at kinds
  rw [← last]
  exact ⟨r, archived, completed, kinds⟩

/-- An object whose kind is below zero completes a round for the kind zero. -/
theorem not_completed_kinds_negativeRun : ¬ ∀ (capacity : Nat) (participants : ParticipantId × ParticipantId)
    (before after : List BatteryEvent) (c : ScenarioCommand) (t : TaskId) (b d : Battery) (r : MatchRound),
    b = (new capacity participants).performAll before → c.payload = .act (.task t) .newRound →
    d = (new capacity participants).performAll (before ++ .run c :: after) → 0 ≤ b.nextTarget t →
    r ∈ d.matching.archive.toList → r.number = b.matching.roundsOpened + 1 → r.status = .completed →
    ∀ p ∈ [participants.1, participants.2], ∃ s, r.selections.get? p = some s ∧
      PlacedIn (new capacity participants) (before ++ .run c :: after) r.number s.object (b.nextTarget t) := by
  intro claim
  obtain ⟨b, first⟩ : ∃ b, b = (new 0 (⟨1⟩, ⟨2⟩)).performAll targetSet := ⟨_, rfl⟩
  obtain ⟨d, last⟩ : ∃ d, d = (new 0 (⟨1⟩, ⟨2⟩)).performAll negativeRun := ⟨_, rfl⟩
  obtain ⟨a, adds⟩ : ∃ a, a = (new 0 (⟨1⟩, ⟨2⟩)).performAll (negativeRun.take 4) := ⟨_, rfl⟩
  obtain ⟨⟨r, archived, number, completed⟩, target, kind⟩ := facts_negativeRun first adds last
  obtain ⟨s, -, n, c, here, -, places⟩ := claim 0 (⟨1⟩, ⟨2⟩) targetSet objectSelected opensRound .matching b d r
    first rfl last (Int.le_of_eq target.symm) archived number completed ⟨1⟩ List.mem_cons_self
  obtain ⟨t, payload, value⟩ := places.described
  obtain ⟨rfl, rfl⟩ := place_of_negativeRun here payload
  have below : a.nextKind .matching = b.nextTarget .matching := adds ▸ value
  rw [kind, target] at below
  exact absurd below (by decide)

end Battery

end Tandem
