import Tandem.Proofs.Matching.Scripted
import Tandem.Proofs.Matching.Shown
/-!
# Rounds that run out

Without participants a round ends in one of two ways: it runs out of its time, for a penalty, or the script replaces it
by the next round, for free.  Which of the two happens to a round depends on when the clock is looked at: a round runs
out if this happens between its deadline and the opening of the next round (`ranOut`).

A battery on which commands have been run and rounds have been expired at some times is compared with one on which the
same commands have been run alone (`Battery.Tracks`).  The two stay abreast, and the fields of the first are those of
the second after the rounds that ran out have lapsed.  What carries this is the order of events.  A command that comes
later than all of the times is stamped above everything that has lapsed, so that it does the same on both sides
(`Tracks.run`).  A time at which all rounds have been opened concerns the last round only (`Tracks.expire`).
-/

namespace Tandem

/-! ## Which rounds run out -/

/-- The last of some rounds, if its deadline has not come at any of the times. -/
def stillOpen (times : List SessionTime) (rounds : List MatchRound) : Option MatchRound :=
  rounds.getLast?.filter (fun r => times.all (· < r.deadline))

/-- The rounds that run out: the last one, if its deadline has come at one of the times, and of the others those whose
deadline has come at a time when the next round was not due yet. -/
def ranOut (times : List SessionTime) : List MatchRound → List MatchRound
  | [] => []
  | [r] => if times.all (· < r.deadline) then [] else [r]
  | r :: next :: rest =>
    let later := ranOut times (next :: rest)
    if times.any (fun t => r.deadline ≤ t && t < next.opened) then r :: later else later

section ranOut

variable {times : List SessionTime} {rounds : List MatchRound} {now : SessionTime}

theorem stillOpen_concat (times : List SessionTime) (rounds : List MatchRound) (now : SessionTime) :
    stillOpen (times ++ [now]) rounds = (stillOpen times rounds).filter (now < ·.deadline) := by
  unfold stillOpen
  cases rounds.getLast? with
  | none => rfl
  | some r => simp [Option.filter_filter]

/-- A round whose deadline has not come stays open. -/
theorem stillOpen_concat_of_none (none : (stillOpen times rounds).filter (·.deadline ≤ now) = none) :
    stillOpen (times ++ [now]) rounds = stillOpen times rounds := by
  rw [stillOpen_concat]
  cases last : stillOpen times rounds with
  | none => rfl
  | some r =>
    rw [last] at none
    have ahead : ¬ r.deadline ≤ now := fun come => by simp [Option.filter_some, come] at none
    simp [Option.filter_some, Std.not_le.mp ahead]

theorem exists_of_mem_ranOut {r : MatchRound} (mem : r ∈ ranOut times rounds) : ∃ t ∈ times, r.deadline ≤ t := by
  induction rounds with
  | nil => exact absurd mem List.not_mem_nil
  | cons first rest ih =>
    cases rest with
    | nil =>
      unfold ranOut at mem
      split at mem
      · exact absurd mem List.not_mem_nil
      · rename_i reached
        rw [List.mem_singleton.mp mem]
        simpa [Std.not_lt] using reached
    | cons next rest =>
      unfold ranOut at mem
      split at mem
      · rename_i reached
        rcases List.mem_cons.mp mem with rfl | later
        · obtain ⟨t, among, within⟩ := List.any_eq_true.mp reached
          exact ⟨t, among, of_decide_eq_true (Bool.and_eq_true_iff.mp within).1⟩
        · exact ih later
      · exact ih mem

/-- A round that is opened after all of the times changes nothing. -/
theorem ranOut_concat_round {next : MatchRound} (before : ∀ t ∈ times, t < next.opened)
    (order : next.opened ≤ next.deadline) (rounds : List MatchRound) :
    ranOut times (rounds ++ [next]) = ranOut times rounds := by
  have fresh : times.all (· < next.deadline) = true :=
    List.all_eq_true.mpr fun t mem => decide_eq_true (Std.lt_of_lt_of_le (before t mem) order)
  induction rounds with
  | nil => exact if_pos fresh
  | cons r rest ih =>
    cases rest with
    | nil =>
      have reached : times.any (fun t => r.deadline ≤ t && t < next.opened) = !times.all (· < r.deadline) := by
        rw [List.not_all_eq_any_not, Bool.eq_iff_iff, List.any_eq_true, List.any_eq_true]
        refine exists_congr fun t => and_congr_right fun mem => ?_
        simp [before t mem, Std.not_lt]
      have last : ranOut times [next] = [] := if_pos fresh
      simp only [List.singleton_append, ranOut, reached, fresh, if_true]
      cases times.all (· < r.deadline) <;> rfl
    | cons second rest =>
      have later := ih
      simp only [List.cons_append] at later ⊢
      rw [ranOut, ranOut, later]

/-- At a time when all of the rounds have been opened the last one runs out, if it is still open and its deadline has
come. -/
theorem ranOut_concat_time (times : List SessionTime) (opened : ∀ r ∈ rounds, r.opened ≤ now) :
    ranOut (times ++ [now]) rounds =
      ranOut times rounds ++ ((stillOpen times rounds).filter (·.deadline ≤ now)).toList := by
  induction rounds with
  | nil => rfl
  | cons r rest ih =>
    cases rest with
    | nil =>
      simp only [ranOut, stillOpen, List.getLast?_singleton, Option.filter_some, List.all_append]
      cases times.all (· < r.deadline) with
      | false => simp
      | true =>
        by_cases come : r.deadline ≤ now
        · simp [Option.filter_some, come, Std.not_lt.mpr come]
        · simp [Option.filter_some, come, Std.not_le.mp come]
    | cons next rest =>
      have replaced : ¬ now < next.opened :=
        Std.not_lt.mpr (opened next (List.mem_cons_of_mem r List.mem_cons_self))
      have later := ih fun x mem => opened x (List.mem_cons_of_mem r mem)
      have last : stillOpen times (r :: next :: rest) = stillOpen times (next :: rest) := by
        rw [stillOpen, stillOpen, List.getLast?_cons_cons]
      rw [ranOut, ranOut, later, last, List.any_append]
      simp only [List.any_cons, List.any_nil, replaced, decide_false, Bool.and_false, Bool.or_false]
      split <;> rfl

/-- Of rounds that have been opened up to a stamp, only the last one can run out at the stamp or later. -/
theorem countedRounds_ranOut {since : Stamp} (opened : ∀ r ∈ rounds, Stamp.scripted r.opened ≤ since) :
    MatchRound.countedRounds since (ranOut times rounds) =
      MatchRound.countedRounds since (rounds.getLast?.filter (fun r => !times.all (· < r.deadline))).toList := by
  induction rounds with
  | nil => rfl
  | cons r rest ih =>
    cases rest with
    | nil =>
      simp only [ranOut, List.getLast?_singleton, Option.filter_some]
      cases times.all (· < r.deadline) <;> rfl
    | cons next rest =>
      have later := ih fun x mem => opened x (List.mem_cons_of_mem r mem)
      rw [List.getLast?_cons_cons, ← later, ranOut]
      split
      · rename_i reached
        -- The next round was opened later than this one ran out.
        obtain ⟨t, -, within⟩ := List.any_eq_true.mp reached
        obtain ⟨come, before⟩ := Bool.and_eq_true_iff.mp within
        have lower : r.timeout < since := by
          refine Std.lt_of_lt_of_le (Stamp.scripted_lt.mpr ?_)
            (opened next (List.mem_cons_of_mem r List.mem_cons_self))
          exact Std.lt_of_le_of_lt (of_decide_eq_true come) (of_decide_eq_true before)
        have uncounted : ¬ since ≤ r.timeout := Std.not_le.mpr lower
        exact List.filter_cons_of_neg (by simpa using uncounted)
      · rfl

end ranOut

/-! ## The script and the clock -/

/-- The round without the mark that its scene has been looked over. -/
def MatchRound.settled (r : MatchRound) : MatchRound := { r with sceneChecked := false }

theorem Coordinator.asOpened_of_mem_opened {c : Coordinator} {r : MatchRound} (mem : r ∈ c.opened) :
    r = r.asOpened := by
  obtain ⟨first, -, rfl⟩ := List.mem_map.mp mem
  rfl

theorem Coordinator.opened_le_deadline_nextRound (c : Coordinator) (s : TaskState) (due : SessionTime) :
    (c.nextRound s due).opened ≤ (c.nextRound s due).deadline :=
  SessionTime.le_ofNat (Nat.le_add_right _ _)

theorem mem_of_mem_stillOpen {times : List SessionTime} {rounds : List MatchRound} {r : MatchRound}
    (mem : r ∈ stillOpen times rounds) : r ∈ rounds ∧ ∀ t ∈ times, t < r.deadline := by
  obtain ⟨last, open_⟩ := Option.mem_filter_iff.mp mem
  exact ⟨List.mem_of_getLast? last, fun t among => of_decide_eq_true (List.all_eq_true.mp open_ t among)⟩

namespace Battery

/-- The battery after a round has run out. -/
def lapsed (b : Battery) (r : MatchRound) : Battery :=
  ({ b with matching := b.matching.checkScene.expirePending }.apply
    ⟨.matching, .scenario, Coordinator.expiredChanges r (b.store.read .matching)⟩).1

/-- Only the pending round is expired, if its deadline has come. -/
theorem expireRounds_fst (b : Battery) (now : SessionTime) : (b.expireRounds now).1 =
    match b.matching.round.filter (fun r => r.status = .pending ∧ r.deadline ≤ now) with
    | some r => b.lapsed r
    | none => b := by
  unfold expireRounds
  rw [Coordinator.tick_eq]
  cases b.matching.round.filter (fun r => r.status = .pending ∧ r.deadline ≤ now) with
  | none => rfl
  | some r => rfl

theorem cell?_lapsed (b : Battery) (r : MatchRound) (key : FieldKey) :
    (b.lapsed r).cell? .matching key = r.lapse key (b.cell? .matching key) := by
  rw [lapsed, cell?_apply, Mutation.writesAt, if_pos rfl]
  exact r.foldl_expiredChanges _ key

theorem typed_lapsed {b : Battery} (typed : b.Typed) (r : MatchRound) : (b.lapsed r).Typed := by
  refine typed.write (cell?_apply _ _) fun t key d mem first start => ?_
  have table : ∀ field ∈ TaskId.defaults .matching,
      (field.1 = "round-status" → field.2.sameType (.text "") = true) ∧
        (field.1 = "score" → field.2.sameType (.int 0) = true) := by decide +kernel
  unfold Mutation.writesAt at mem
  split at mem
  · rename_i here
    cases here
    obtain ⟨made, same⟩ := List.mem_filter.mp mem
    have type := table _ (TaskState.mem_defaults_of_cell?_initial start).1
    have here : d.key = key := of_decide_eq_true same
    rcases List.mem_cons.mp made with rfl | made
    · exact FieldValue.sameType_trans (type.1 here.symm) rfl
    · rw [List.mem_singleton.mp made] at here ⊢
      exact FieldValue.sameType_trans (type.2 here.symm) rfl
  · exact absurd mem List.not_mem_nil

theorem alike_lapsed (b : Battery) (r : MatchRound) : b.matching.Alike (b.lapsed r).matching :=
  b.matching.alike_checkScene.trans b.matching.checkScene.expirePending_spec.1

/-- A round that runs out leaves a battery abreast of the script. -/
theorem Abreast.lapsed {a b : Battery} (h : a.Abreast b) (r : MatchRound) : a.Abreast (b.lapsed r) where
  rounds := h.rounds.trans (b.alike_lapsed r)
  states t elsewhere := by
    have kept := Store.read_apply b.store ⟨.matching, .scenario, Coordinator.expiredChanges r (b.store.read .matching)⟩ t
    rw [if_neg fun same => elsewhere same.symm] at kept
    exact (h.states t elsewhere).trans kept.symm
  cells key unlisted := by
    rw [cell?_lapsed, MatchRound.lapse_of_not_mem unlisted]
    exact h.cells key unlisted
  tasks := h.tasks
  tasks' t := (task_read_apply _ _ t).trans (h.tasks' t)
  typed := h.typed
  typed' := typed_lapsed h.typed' r

/-- A battery on which, at each of some times, due commands have been run and the pending round has been expired if its
deadline had come, beside one on which the commands have been run alone. -/
structure Tracks (times : List SessionTime) (a b : Battery) : Prop where
  abreast : a.Abreast b
  cells : ∀ key, b.cell? .matching key =
    (ranOut times b.matching.opened).foldl (MatchRound.lapse key) (a.cell? .matching key)
  order : (ranOut times b.matching.opened).Pairwise (·.timeout < ·.timeout)
  round : b.matching.round = stillOpen times b.matching.opened
  archived : ∀ r ∈ b.matching.archive.toList, r.settled = { r.asOpened with status := .expired }

theorem tracks_new (capacity : Nat) (participants : ParticipantId × ParticipantId) :
    Tracks [] (.new capacity participants) (.new capacity participants) := by
  have none : (Battery.new capacity participants).matching.opened = [] := rfl
  refine ⟨abreast_new capacity participants, fun key => ?_, ?_, ?_, fun r mem => absurd mem List.not_mem_nil⟩
  · rw [none]
    rfl
  · rw [none]
    exact .nil
  · rw [none]
    rfl

namespace Tracks

variable {times : List SessionTime} {a b : Battery}

theorem pending (h : Tracks times a b) {r : MatchRound} (mem : r ∈ b.matching.round) :
    r ∈ b.matching.opened ∧ r = r.asOpened ∧ ∀ t ∈ times, t < r.deadline := by
  obtain ⟨opened, before⟩ := mem_of_mem_stillOpen (h.round ▸ mem)
  exact ⟨opened, Coordinator.asOpened_of_mem_opened opened, before⟩

/-- The pending round is archived without any trace of its course. -/
theorem archived_expirePending (h : Tracks times a b) :
    ∀ r ∈ b.matching.expirePending.archive.toList, r.settled = { r.asOpened with status := .expired } := by
  intro r mem
  rw [Coordinator.archive_expirePending] at mem
  rcases List.mem_append.mp mem with before | ended
  · exact h.archived r before
  · obtain ⟨first, here, rfl⟩ := List.mem_map.mp ended
    rw [(h.pending (Option.mem_toList.mp here)).2.1]
    rfl

/-- **A command that is due after all of the times.** -/
theorem run (h : Tracks times a b) {c : ScenarioCommand} (later : ∀ t ∈ times, t < c.due) :
    Tracks times (a.run c).1 (b.run c).1 := by
  have rounds : ranOut times (b.run c).1.matching.opened = ranOut times b.matching.opened ∧
      (b.run c).1.matching.round = stillOpen times (b.run c).1.matching.opened ∧
      ∀ r ∈ (b.run c).1.matching.archive.toList, r.settled = { r.asOpened with status := .expired } := by
    rw [matching_run]
    rcases b.scripted_rounds c with ⟨t, -, opens⟩ | ⟨round, archive⟩
    · have order := Coordinator.opened_le_deadline_nextRound b.matching (b.store.read t) c.due
      have fresh : times.all (· < (b.matching.nextRound (b.store.read t) c.due).deadline) = true :=
        List.all_eq_true.mpr fun s mem => decide_eq_true (Std.lt_of_lt_of_le (later s mem) order)
      rw [opens, (Coordinator.rounds_newRound _ _ _ _).1, Coordinator.round_newRound, Coordinator.archive_newRound]
      refine ⟨ranOut_concat_round later order _, ?_, h.archived_expirePending⟩
      rw [stillOpen, List.getLast?_concat, Option.filter_some, if_pos fresh]
    · have opened : (b.scripted c).1.opened = b.matching.opened := by
        rw [Coordinator.opened_eq, Coordinator.opened_eq, round, archive]
      rw [opened, round, archive]
      exact ⟨rfl, h.round, h.archived⟩
  obtain ⟨same, round, archived⟩ := rounds
  refine ⟨h.abreast.run c, fun key => ?_, same ▸ h.order, round, archived⟩
  have late : ∀ r ∈ ranOut times b.matching.opened, ∀ d ∈ a.scriptedAt c .matching key, r.timeout < d.stamp := by
    intro r mem d made
    obtain ⟨t, among, come⟩ := exists_of_mem_ranOut mem
    obtain ⟨task, written, -⟩ := mem_scriptedAt made
    rw [(scriptWrite task written).1]
    exact Stamp.scripted_lt.mpr (Std.lt_of_le_of_lt come (later t among))
  rw [cell?_run, cell?_run, same, h.cells, ← h.abreast.scriptedAt_eq]
  exact MatchRound.foldl_writeCell_foldl_lapse late _

theorem play (h : Tracks times a b) {commands : List ScenarioCommand}
    (later : ∀ c ∈ commands, ∀ t ∈ times, t < c.due) : Tracks times (a.play commands) (b.play commands) := by
  induction commands generalizing a b with
  | nil => exact h
  | cons c rest ih =>
    exact ih (h.run (later c List.mem_cons_self)) fun d mem => later d (List.mem_cons_of_mem c mem)

/-- The pending round runs out. -/
theorem lapse (h : Tracks times a b) {now : SessionTime} (opened : ∀ r ∈ b.matching.opened, r.opened ≤ now)
    {r : MatchRound} (out : (stillOpen times b.matching.opened).filter (·.deadline ≤ now) = some r) :
    Tracks (times ++ [now]) a (b.lapsed r) := by
  obtain ⟨last, come⟩ := Option.filter_eq_some_iff.mp out
  have round : b.matching.round = some r := h.round.trans last
  have same : (b.lapsed r).matching.opened = b.matching.opened := (b.alike_lapsed r).opened.symm
  have more := ranOut_concat_time times opened
  rw [out, Option.toList_some] at more
  obtain ⟨-, plain, before⟩ := h.pending round
  refine ⟨h.abreast.lapsed r, fun key => ?_, ?_, ?_, fun x mem => ?_⟩
  · rw [cell?_lapsed, same, more, List.foldl_append, h.cells]
    rfl
  · -- What ran out at one of the times had an earlier deadline.
    rw [same, more]
    refine List.pairwise_append.mpr ⟨h.order, List.pairwise_singleton _ _, fun x mem y new => ?_⟩
    obtain ⟨t, among, reached⟩ := exists_of_mem_ranOut mem
    rw [List.mem_singleton.mp new]
    exact Stamp.scripted_lt.mpr (Std.lt_of_le_of_lt reached (before t among))
  · rw [same, stillOpen_concat, last, Option.filter_some, if_neg (by simpa [Std.not_lt] using come)]
    exact Coordinator.round_expirePending _
  · change x ∈ b.matching.checkScene.expirePending.archive.toList at mem
    rw [Coordinator.archive_expirePending, Coordinator.archive_checkScene, Coordinator.round_checkScene, round] at mem
    rcases List.mem_append.mp mem with old | new
    · exact h.archived x old
    · rw [List.mem_singleton.mp new, plain]
      rfl

/-- **A time at which all of the rounds have been opened.** -/
theorem expire (h : Tracks times a b) {now : SessionTime} (opened : ∀ r ∈ b.matching.opened, r.opened ≤ now) :
    Tracks (times ++ [now]) a (b.expireRounds now).1 := by
  have due : b.matching.round.filter (fun r => r.status = .pending ∧ r.deadline ≤ now) =
      (stillOpen times b.matching.opened).filter (·.deadline ≤ now) := by
    rw [← h.round]
    cases round : b.matching.round with
    | none => rfl
    | some r =>
      have status : r.status = .pending := congrArg MatchRound.status (h.pending round).2.1
      simp [Option.filter_some, status]
  rw [expireRounds_fst, due]
  cases out : (stillOpen times b.matching.opened).filter (·.deadline ≤ now) with
  | none =>
    have more := ranOut_concat_time times opened
    rw [out, Option.toList_none, List.append_nil] at more
    have still := stillOpen_concat_of_none out
    exact ⟨h.abreast, more ▸ h.cells, more ▸ h.order, still ▸ h.round, h.archived⟩
  | some r => exact h.lapse opened out

end Tracks

/-! ## When the script opens rounds -/

theorem opened_run (b : Battery) (c : ScenarioCommand) {r : MatchRound} (mem : r ∈ (b.run c).1.matching.opened) :
    r ∈ b.matching.opened ∨ r.opened = c.due := by
  rw [matching_run] at mem
  rcases b.scripted_rounds c with ⟨t, -, opens⟩ | ⟨round, archive⟩
  · rw [opens, (Coordinator.rounds_newRound _ _ _ _).1] at mem
    rcases List.mem_append.mp mem with before | new
    · exact Or.inl before
    · exact Or.inr (congrArg MatchRound.opened (List.mem_singleton.mp new))
  · rw [Coordinator.opened_eq, round, archive, ← Coordinator.opened_eq] at mem
    exact Or.inl mem

/-- A round is opened at the due time of a command. -/
theorem opened_play (b : Battery) {commands : List ScenarioCommand} {r : MatchRound}
    (mem : r ∈ (b.play commands).matching.opened) :
    r ∈ b.matching.opened ∨ ∃ c ∈ commands, r.opened = c.due := by
  induction commands generalizing b with
  | nil => exact Or.inl mem
  | cons c rest ih =>
    rcases ih (b.run c).1 mem with before | ⟨d, among, same⟩
    · exact (b.opened_run c before).imp id fun same => ⟨c, List.mem_cons_self, same⟩
    · exact Or.inr ⟨d, List.mem_cons_of_mem c among, same⟩

theorem play_append (b : Battery) (first second : List ScenarioCommand) :
    b.play (first ++ second) = (b.play first).play second := List.foldl_append

/-- The status is stamped no lower than any round has been opened. -/
def ShowsOpened (b : Battery) : Prop :=
  ∃ cell, b.cell? .matching "round-status" = some cell ∧ ∀ r ∈ b.matching.opened, .scripted r.opened ≤ cell.stamp

theorem showsOpened_new (capacity : Nat) (participants : ParticipantId × ParticipantId) :
    (Battery.new capacity participants).ShowsOpened := by
  have listed : ∃ d ∈ TaskId.defaults .matching, d.1 = "round-status" := by decide +kernel
  obtain ⟨cell, found⟩ := Option.isSome_iff_exists.mp (TaskState.isSome_cell?_initial listed)
  exact ⟨cell, (cell?_new _ _ _ _).trans found, fun r mem => absurd mem List.not_mem_nil⟩

theorem ShowsOpened.run {b : Battery} (h : b.ShowsOpened) {c : ScenarioCommand}
    (allowed : c.payload.isAllowed = true) : (b.run c).1.ShowsOpened := by
  obtain ⟨held, found, upTo⟩ := h
  obtain ⟨after, written, grown, reaches⟩ := exists_foldl_writeCell held (b.scriptedAt c .matching "round-status")
  refine ⟨after, by rw [cell?_run, found, written], fun r mem => ?_⟩
  rcases b.opened_run c mem with before | due
  · exact Std.le_trans (upTo r before) grown
  · rcases b.scripted_rounds c with ⟨t, payload, opens⟩ | ⟨round, archive⟩
    · -- The command opens the round and shows it as pending.
      have here : t = .matching := by
        rw [payload] at allowed
        exact of_decide_eq_true allowed
      have shown : ⟨"round-status", .text RoundStatus.pending.label, c.stamp⟩ ∈
          b.scriptedAt c .matching "round-status" := by
        rw [scriptedAt, payload, here, opens, Coordinator.newRound_eq]
        exact List.mem_filter.mpr ⟨List.mem_cons_of_mem _ List.mem_cons_self, rfl⟩
      exact due ▸ reaches _ shown
    · rw [matching_run, Coordinator.opened_eq, round, archive, ← Coordinator.opened_eq] at mem
      exact Std.le_trans (upTo r mem) grown

theorem ShowsOpened.play {b : Battery} (h : b.ShowsOpened) {commands : List ScenarioCommand}
    (allowed : ∀ c ∈ commands, c.payload.isAllowed = true) : (b.play commands).ShowsOpened := by
  induction commands generalizing b with
  | nil => exact h
  | cons c rest ih =>
    exact ih (h.run (allowed c List.mem_cons_self)) fun d mem => allowed d (List.mem_cons_of_mem c mem)

/-- The stamp of the score. -/
def scoreStamp (b : Battery) : Stamp := ((b.cell? .matching "score").map (·.stamp)).getD .genesis

theorem exists_score {b : Battery} (typed : b.Typed) :
    ∃ total, b.cell? .matching "score" = some ⟨.int total, b.scoreStamp⟩ := by
  have table : ∃ d ∈ TaskId.defaults .matching, d.1 = "score" := by decide +kernel
  have type : ∀ d ∈ TaskId.defaults .matching, d.1 = "score" → d.2.sameType (.int 0) = true := by decide +kernel
  obtain ⟨first, start⟩ := Option.isSome_iff_exists.mp (TaskState.isSome_cell?_initial table)
  obtain ⟨⟨value, stamp⟩, found, same⟩ := typed .matching "score" first start
  have int := type _ (TaskState.mem_defaults_of_cell?_initial start).1 rfl
  rw [scoreStamp, found]
  rw [FieldValue.sameType_comm] at same
  have like := FieldValue.sameType_trans same int
  cases value with
  | int total => exact ⟨total, rfl⟩
  | _ => cases like

/-- Rounds that run out leave the same status. -/
def SameStatus (b : Battery) (out out' : List MatchRound) : Prop :=
  out.foldl (MatchRound.lapse "round-status") (b.cell? .matching "round-status") =
    out'.foldl (MatchRound.lapse "round-status") (b.cell? .matching "round-status")

/-- If the script shows every round that it opens, the status depends on the last round only. -/
theorem ShowsOpened.sameStatus {b : Battery} (h : b.ShowsOpened) {times times' : List SessionTime}
    (reached : ∀ d : SessionTime, times.all (· < d) = times'.all (· < d)) :
    b.SameStatus (ranOut times b.matching.opened) (ranOut times' b.matching.opened) := by
  obtain ⟨cell, found, upTo⟩ := h
  rw [SameStatus, found, MatchRound.foldl_lapse_counted, MatchRound.foldl_lapse_counted _ _ (ranOut times' _),
    countedRounds_ranOut upTo, countedRounds_ranOut upTo]
  simp only [reached]

end Battery

end Tandem
