import Mathlib.Data.List.Induction
import Tandem.Proofs.Matching.RanOut
import Tandem.Proofs.Scenario.Dispatch
/-!
# Rehearsals

A rehearsal is a scenario that is run without participants.  It comes to one time after the other; each time the
commands that are due are run, and then the pending round is expired if its deadline has come.

Two rehearsals of a scenario that end at the same time agree on nearly everything, however often they have looked at the
clock: on what is left of the script, on the scene, on the rounds and how they stand, and on all fields but two
(`Rehearsal.SameCourse`).  The two are the status and the score of the matching task.  A round that runs out takes a
penalty off the score, one that the script replaces does not, and which of the two happens to a round whose deadline
passes before the next one is due depends on whether the rehearsal comes to a time in between.  `sameOutcome_iff` says
exactly when that makes no difference.

The commands that are handed out do not depend on the times in between (`Rehearsal.handedOut_eq`), so both rehearsals go
along with one battery on which these commands are played alone (`Rehearsal.tracks`).
-/

namespace Tandem

/-- A scenario that is run without participants: the commands to come and the tasks. -/
structure Rehearsal where
  queue : CommandQueue
  battery : Battery

namespace Rehearsal

/-- The start of a rehearsal. -/
def new (capacity : Nat) (participants : ParticipantId × ParticipantId) (commands : List ScenarioCommand) : Rehearsal :=
  ⟨.load commands, .new capacity participants⟩

/-- Comes to a time: runs the commands due by then, and expires the pending round if its deadline has come. -/
def reach (r : Rehearsal) (now : SessionTime) : Rehearsal :=
  let (due, queue) := r.queue.advance now.wholeSeconds
  ⟨queue, ((r.battery.play due).expireRounds now).1⟩

/-- Comes to one time after the other. -/
def reachAll (r : Rehearsal) (times : List SessionTime) : Rehearsal := times.foldl reach r

/-- The tasks if the commands due by a time are run at once and no round runs out. -/
def alone (r : Rehearsal) (last : SessionTime) : Battery := r.battery.play (r.queue.advance last.wholeSeconds).1

/-- Two rehearsals in the same course, but for the fields that show how rounds went: what is left of the script, the
scene and the rounds, the other tasks and the other fields. -/
structure SameCourse (x y : Rehearsal) : Prop where
  queue : x.queue = y.queue
  rounds : x.battery.matching.Alike y.battery.matching
  round : x.battery.matching.round = y.battery.matching.round
  archive : x.battery.matching.archive.toList.map MatchRound.settled =
    y.battery.matching.archive.toList.map MatchRound.settled
  states : ∀ t, t ≠ .matching → x.battery.store.read t = y.battery.store.read t
  cells : ∀ key, key ∉ Coordinator.outcomeKeys → x.battery.cell? .matching key = y.battery.cell? .matching key

/-- Two rehearsals that end alike: with the same fields and stamps in all tasks, the same pending round and the same
archived rounds. -/
structure SameOutcome (x y : Rehearsal) : Prop where
  cells : ∀ t key, x.battery.cell? t key = y.battery.cell? t key
  round : x.battery.matching.round = y.battery.matching.round
  archive : x.battery.matching.archive.toList.map MatchRound.settled =
    y.battery.matching.archive.toList.map MatchRound.settled

theorem le_of_getLast? {times : List SessionTime} (sorted : times.Pairwise (· ≤ ·)) {last : SessionTime}
    (ends : times.getLast? = some last) : ∀ t ∈ times, t ≤ last := by
  obtain ⟨before, rfl⟩ := List.getLast?_eq_some_iff.mp ends
  intro t mem
  rcases List.mem_append.mp mem with earlier | new
  · exact (List.pairwise_append.mp sorted).2.2 t earlier last List.mem_cons_self
  · rw [List.mem_singleton.mp new]
    exact Std.le_refl last

/-- The deadlines that have come are those that have come at the last of the times. -/
theorem all_lt_iff {times : List SessionTime} (sorted : times.Pairwise (· ≤ ·)) {last : SessionTime}
    (ends : times.getLast? = some last) (deadline : SessionTime) :
    times.all (· < deadline) = decide (last < deadline) := by
  rw [Bool.eq_iff_iff, List.all_eq_true, decide_eq_true_eq]
  constructor
  · exact fun before => of_decide_eq_true (before last (List.mem_of_getLast? ends))
  · exact fun before t mem => decide_eq_true (Std.lt_of_le_of_lt (le_of_getLast? sorted ends t mem) before)

section run

variable {capacity : Nat} {participants : ParticipantId × ParticipantId} {commands : List ScenarioCommand}

/-- A command that is due by a second that the clock shows has come when the clock shows it. -/
theorem due_le_iff {c : ScenarioCommand} {shown : SessionTime} (due : c.dueSecond ≤ shown.wholeSeconds)
    (t : SessionTime) : c.due ≤ t ↔ c.dueSecond ≤ t.wholeSeconds :=
  SessionTime.ofSeconds_le_iff (Nat.lt_of_le_of_lt due (Nat.lt_succ_of_le (Nat.min_le_right _ _))) t

/-- The commands that are handed out up to some times, and the queue after them. -/
def handedOut (commands : List ScenarioCommand) (times : List SessionTime) : List ScenarioCommand × CommandQueue :=
  (CommandQueue.load commands).advanceAll (times.map SessionTime.wholeSeconds)

theorem handedOut_concat (commands : List ScenarioCommand) (times : List SessionTime) (now : SessionTime) :
    (handedOut commands (times ++ [now])).1 =
        (handedOut commands times).1 ++ ((handedOut commands times).2.advance now.wholeSeconds).1 ∧
      (handedOut commands (times ++ [now])).2 = ((handedOut commands times).2.advance now.wholeSeconds).2 := by
  have both := CommandQueue.advanceAll_append (CommandQueue.load commands)
    (times.map SessionTime.wholeSeconds) [now.wholeSeconds]
  rw [handedOut, List.map_append, List.map_singleton, both]
  exact ⟨congrArg ((handedOut commands times).1 ++ ·) (List.append_nil _), rfl⟩

/-- Up to times that do not decrease, that is what one advance hands out. -/
theorem handedOut_eq (commands : List ScenarioCommand) {times : List SessionTime}
    (sorted : times.Pairwise (· ≤ ·)) {last : SessionTime} (ends : times.getLast? = some last) :
    handedOut commands times = (CommandQueue.load commands).advance last.wholeSeconds := by
  have due : CommandQueue.dueBy (times.map SessionTime.wholeSeconds) =
      fun c => decide (c.dueSecond ≤ last.wholeSeconds) := by
    funext c
    rw [Bool.eq_iff_iff, CommandQueue.dueBy_iff, decide_eq_true_eq]
    constructor
    · rintro ⟨_, among, due⟩
      obtain ⟨t, listed, rfl⟩ := List.mem_map.mp among
      exact Nat.le_trans due (SessionTime.wholeSeconds_mono (le_of_getLast? sorted ends t listed))
    · exact fun due => ⟨_, List.mem_map_of_mem (List.mem_of_getLast? ends), due⟩
  rw [handedOut, CommandQueue.advanceAll_eq, due]
  rfl

/-- A round that is opened by these commands was due by the last of the times. -/
theorem opened_le {times : List SessionTime} {now : SessionTime} (upTo : ∀ t ∈ times, t ≤ now) {r : MatchRound}
    (mem : r ∈ ((Battery.new capacity participants).play (handedOut commands times).1).matching.opened) :
    r.opened ≤ now := by
  rcases Battery.opened_play _ mem with none | ⟨c, handed, same⟩
  · exact absurd none List.not_mem_nil
  · obtain ⟨_, among, due⟩ := CommandQueue.due_of_mem_advanceAll handed
    obtain ⟨t, listed, rfl⟩ := List.mem_map.mp among
    exact same ▸ Std.le_trans ((due_le_iff due t).mpr due) (upTo t listed)

/-- What is handed out at a time was not due at the times before. -/
theorem lt_due {times : List SessionTime} {now : SessionTime} {c : ScenarioCommand}
    (mem : c ∈ ((handedOut commands times).2.advance now.wholeSeconds).1) : ∀ t ∈ times, t < c.due := by
  intro t among
  obtain ⟨due, before⟩ := CommandQueue.lt_of_mem_advance mem
  refine Std.not_le.mp fun come => ?_
  exact Nat.not_lt_of_le ((due_le_iff due t).mp come) (before _ (List.mem_map_of_mem among))

/-- **A rehearsal goes along with the script.** -/
theorem tracks (capacity : Nat) (participants : ParticipantId × ParticipantId) (commands : List ScenarioCommand)
    {times : List SessionTime} (sorted : times.Pairwise (· ≤ ·)) :
    ((new capacity participants commands).reachAll times).queue = (handedOut commands times).2 ∧
      Battery.Tracks times ((Battery.new capacity participants).play (handedOut commands times).1)
        ((new capacity participants commands).reachAll times).battery := by
  induction times using List.reverseRecOn with
  | nil => exact ⟨rfl, Battery.tracks_new capacity participants⟩
  | append_singleton times now ih =>
    obtain ⟨queue, tracks⟩ := ih (List.pairwise_append.mp sorted).1
    have upTo : ∀ t ∈ times ++ [now], t ≤ now := le_of_getLast? sorted List.getLast?_concat
    have reached : (new capacity participants commands).reachAll (times ++ [now]) =
        ((new capacity participants commands).reachAll times).reach now := List.foldl_append
    obtain ⟨handed, left⟩ := handedOut_concat commands times now
    have later : ∀ c ∈ ((handedOut commands times).2.advance now.wholeSeconds).1, ∀ t ∈ times, t < c.due :=
      fun c mem => lt_due mem
    have played := tracks.play later
    rw [← Battery.play_append, ← handed] at played
    have opened : ∀ r ∈ (((new capacity participants commands).reachAll times).battery.play
        ((handedOut commands times).2.advance now.wholeSeconds).1).matching.opened, r.opened ≤ now :=
      fun r mem => opened_le upTo (played.abreast.rounds.opened ▸ mem)
    rw [reached, reach, queue]
    exact ⟨left.symm, played.expire opened⟩

/-- What is left of two rehearsals of one script that end at the same time. -/
theorem sameCourse {x y : Rehearsal} {a : Battery} {times times' : List SessionTime} (queue : x.queue = y.queue)
    (h : Battery.Tracks times a x.battery) (h' : Battery.Tracks times' a y.battery)
    (reached : ∀ d : SessionTime, times.all (· < d) = times'.all (· < d)) : x.SameCourse y := by
  have rounds : x.battery.matching.Alike y.battery.matching := h.abreast.rounds.symm.trans h'.abreast.rounds
  have round : x.battery.matching.round = y.battery.matching.round := by
    rw [h.round, h'.round, rounds.opened, stillOpen, stillOpen]
    simp only [reached]
  have opened : x.battery.matching.archive.toList.map MatchRound.asOpened =
      y.battery.matching.archive.toList.map MatchRound.asOpened := by
    have all := rounds.opened
    rw [Coordinator.opened_eq, Coordinator.opened_eq, round] at all
    exact List.append_cancel_right all
  -- A round that is over without participants is the round as it was opened, expired.
  have archived : ∀ {b : Battery} {times : List SessionTime}, Battery.Tracks times a b →
      b.matching.archive.toList.map MatchRound.settled =
        (b.matching.archive.toList.map MatchRound.asOpened).map ({ · with status := .expired }) := by
    intro b times tracks
    rw [List.map_map]
    exact List.map_congr_left tracks.archived
  refine ⟨queue, rounds, round, by rw [archived h, archived h', opened], fun t elsewhere => ?_, fun key unlisted => ?_⟩
  · rw [← h.abreast.states t elsewhere, h'.abreast.states t elsewhere]
  · rw [← h.abreast.cells key unlisted, h'.abreast.cells key unlisted]

/-- What is left to agree on. -/
theorem SameCourse.ends_alike_iff {x y : Rehearsal} (h : x.SameCourse y) : x.SameOutcome y ↔
    ∀ key ∈ Coordinator.outcomeKeys, x.battery.cell? .matching key = y.battery.cell? .matching key := by
  refine ⟨fun same key _ => same.cells .matching key, fun listed => ⟨fun t key => ?_, h.round, h.archive⟩⟩
  by_cases here : t = .matching
  · subst here
    by_cases outcome : key ∈ Coordinator.outcomeKeys
    · exact listed key outcome
    · exact h.cells key outcome
  · exact congrArg (·.cell? key) (h.states t here)

/-- **When the outcome does not depend on the times.**  Two rehearsals of a scenario come to times that do not decrease
and that end at the same time.  They stay in the same course, and they have the same outcome exactly if the rounds that
run out in the one and in the other leave the same status and cost the same since the script last wrote the score.  The
status is always the same if every target has the actions that are asked of it, as in a scenario that has been loaded
(`Scenario.isAllowed_of_load`). -/
theorem sameOutcome_iff (capacity : Nat) (participants : ParticipantId × ParticipantId)
    (commands : List ScenarioCommand) {times times' : List SessionTime} {last : SessionTime}
    (sorted : times.Pairwise (· ≤ ·)) (sorted' : times'.Pairwise (· ≤ ·)) (ends : times.getLast? = some last)
    (ends' : times'.getLast? = some last) :
    let start := new capacity participants commands
    let alone := start.alone last
    let out := ranOut times alone.matching.opened
    let out' := ranOut times' alone.matching.opened
    (start.reachAll times).SameCourse (start.reachAll times') ∧
      ((start.reachAll times).SameOutcome (start.reachAll times') ↔
        alone.SameStatus out out' ∧ MatchRound.SameCharge alone.scoreStamp out out') ∧
      ((∀ c ∈ commands, c.payload.isAllowed = true) → alone.SameStatus out out') := by
  intro start alone out out'
  obtain ⟨queue, tracks⟩ := Rehearsal.tracks capacity participants commands sorted
  obtain ⟨queue', tracks'⟩ := Rehearsal.tracks capacity participants commands sorted'
  rw [handedOut_eq commands sorted ends] at queue tracks
  rw [handedOut_eq commands sorted' ends'] at queue' tracks'
  have reached : ∀ d : SessionTime, times.all (· < d) = times'.all (· < d) := fun d =>
    (all_lt_iff sorted ends d).trans (all_lt_iff sorted' ends' d).symm
  have course := sameCourse (queue.trans queue'.symm) tracks tracks' reached
  refine ⟨course, ?_, fun allowed => ?_⟩
  · have order := tracks.order
    have order' := tracks'.order
    have status := tracks.cells "round-status"
    have status' := tracks'.cells "round-status"
    have score := tracks.cells "score"
    have score' := tracks'.cells "score"
    rw [← tracks.abreast.rounds.opened] at order status score
    rw [← tracks'.abreast.rounds.opened] at order' status' score'
    obtain ⟨total, shown⟩ := Battery.exists_score tracks.abreast.typed
    rw [shown] at score score'
    rw [course.ends_alike_iff, Coordinator.outcomeKeys]
    simp only [List.forall_mem_cons, List.not_mem_nil, false_implies, implies_true, and_true]
    rw [status, status', score, score', MatchRound.foldl_lapse_score_eq_iff order order']
    rfl
  · have among : ∀ c ∈ ((CommandQueue.load commands).advance last.wholeSeconds).1, c.payload.isAllowed = true := by
      intro c mem
      have loaded : c ∈ (CommandQueue.load commands).pending := (List.takeWhile_prefix _).subset mem
      exact allowed c ((DispatchOrder.load commands).perm.mem_iff.mp loaded)
    exact ((Battery.showsOpened_new capacity participants).play among).sameStatus reached

end run

/-- Two rounds, with the time limit that holds unless a scenario sets another one: the first one's deadline is five
seconds before the second one is opened. -/
def twoRounds : List ScenarioCommand :=
  [⟨0, 0, .act (.task .matching) .newRound, 1, 0⟩, ⟨15, 0, .act (.task .matching) .newRound, 2, 1⟩]

theorem load_twoRounds : CommandQueue.load twoRounds = ⟨twoRounds, 0, false⟩ :=
  CommandQueue.load_of_sorted (by decide)

/-- Two rehearsals that both come to a time in these five seconds, the one once and the other twice. -/
theorem sameOutcome_iff_twoRounds :
    ((new 0 (⟨1⟩, ⟨2⟩) twoRounds).reachAll [.ofSeconds 12, .ofSeconds 15]).SameOutcome
      ((new 0 (⟨1⟩, ⟨2⟩) twoRounds).reachAll [.ofSeconds 10, .ofSeconds 14, .ofSeconds 15]) := by
  have once : [SessionTime.ofSeconds 12, .ofSeconds 15].Pairwise (· ≤ ·) := by decide
  have twice : [SessionTime.ofSeconds 10, .ofSeconds 14, .ofSeconds 15].Pairwise (· ≤ ·) := by decide
  obtain ⟨-, same, status⟩ := sameOutcome_iff 0 (⟨1⟩, ⟨2⟩) twoRounds once twice rfl rfl
  refine same.mpr ⟨status (by decide), ?_⟩
  simp only [new, alone, load_twoRounds]
  decide +kernel

/-- **The outcome can depend on the times**: the first round runs out if there is a time in these five seconds, and
otherwise it is replaced for free. -/
theorem not_sameOutcome_twoRounds :
    ¬ ((new 0 (⟨1⟩, ⟨2⟩) twoRounds).reachAll [.ofSeconds 12, .ofSeconds 15]).SameOutcome
      ((new 0 (⟨1⟩, ⟨2⟩) twoRounds).reachAll [.ofSeconds 15]) := by
  intro same
  have score := same.cells .matching "score"
  simp only [new, load_twoRounds] at score
  revert score
  decide +kernel

end Rehearsal

end Tandem
