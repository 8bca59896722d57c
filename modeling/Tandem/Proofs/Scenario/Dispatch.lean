import Mathlib.Data.List.Sort
import Mathlib.Data.List.TakeWhile
import Tandem.Scenario.Queue
/-!
# The order of dispatch

A queue is advanced to seconds that need not grow: a clock may skip seconds, stand still, or be read twice.  What
has been handed out does not depend on that.  `CommandQueue.advanceAll_load`: together the advances hand out the
commands due by the largest second so far, in dispatch order, and none of them twice; and an advance comes to the
same as several smaller ones.

`DispatchOrder` is what the order has to be, said without sorting: by due second, priority and index, and as loaded
where these are equal.  No two arrangements of the same commands have it (`DispatchOrder.unique`).

The proof follows the pending commands.  An advance splits them at the first command that is not due, and two
splits in a row are one split, because of two seconds one is the larger (`List.takeWhile_dropWhile`).  That takes
no order.  The order is only needed to see that the commands before the split are all the commands that are due.
-/

namespace List

variable {α : Type} {p q : α → Bool}

/-- Splitting off twice is splitting off once, if one of the conditions implies the other. -/
theorem takeWhile_dropWhile (nested : (∀ a, p a = true → q a = true) ∨ ∀ a, q a = true → p a = true) (l : List α) :
    l.takeWhile p ++ (l.dropWhile p).takeWhile q = l.takeWhile (fun a => p a || q a) ∧
      (l.dropWhile p).dropWhile q = l.dropWhile (fun a => p a || q a) := by
  induction l with
  | nil => exact ⟨rfl, rfl⟩
  | cons a rest ih =>
    cases here : p a with
    | true => simpa [here] using ih
    | false =>
      rcases nested with wider | narrower
      · have same : (fun a => p a || q a) = q := by
          funext b
          cases at_b : p b with
          | true => simp [wider b at_b]
          | false => rfl
        simp [here, same]
      · have neither : q a = false := by
          cases at_a : q a with
          | true => exact absurd (narrower a at_a) (by simp [here])
          | false => rfl
        simp [here, neither]

/-- Where a condition holds of nothing behind an element without it, the elements before the first failure are
those that have it. -/
theorem takeWhile_eq_filter {l : List α} (downward : l.Pairwise fun a b => p b = true → p a = true) :
    l.takeWhile p = l.filter p := by
  induction downward with
  | nil => rfl
  | @cons a rest behind _ ih =>
    cases here : p a with
    | true => simp [here, ih]
    | false =>
      have none : rest.filter p = [] := by
        refine List.filter_eq_nil_iff.mpr fun b mem holds => ?_
        simp [behind b mem holds] at here
      simp [here, none]

/-- There, the condition fails from the first failure on. -/
theorem not_of_mem_dropWhile {l : List α} (downward : l.Pairwise fun a b => p b = true → p a = true) {a : α}
    (mem : a ∈ l.dropWhile p) : p a = false := by
  induction downward with
  | nil => exact absurd mem List.not_mem_nil
  | @cons b rest behind _ ih =>
    cases first : p b with
    | true =>
      rw [List.dropWhile_cons_of_pos first] at mem
      exact ih mem
    | false =>
      rw [List.dropWhile_cons_of_neg (by simp [first])] at mem
      rcases List.mem_cons.mp mem with rfl | later
      · exact first
      · cases here : p a with
        | true => exact absurd (behind a later here) (by simp [first])
        | false => rfl

end List

namespace Tandem

namespace ScenarioCommand

/-- Two commands have the same place in the dispatch order. -/
def level (a b : ScenarioCommand) : Bool := a.precedes b && b.precedes a

/-- These are the commands of the same second, priority and index. -/
theorem level_iff (a b : ScenarioCommand) :
    a.level b = true ↔ a.dueSecond = b.dueSecond ∧ a.priority = b.priority ∧ a.index = b.index := by
  simp only [level, precedes, Bool.and_eq_true, decide_eq_true_eq]
  omega

/-- A command that precedes another is not due later. -/
theorem dueSecond_le_of_precedes {a b : ScenarioCommand} (h : a.precedes b = true) : a.dueSecond ≤ b.dueSecond := by
  simp only [precedes, decide_eq_true_eq] at h
  omega

end ScenarioCommand

open ScenarioCommand

/-- The commands of a list in dispatch order: every command as often as in the list, by due second, then higher
priority first, then index, and in the order of the list where all three are equal. -/
structure DispatchOrder (commands ordered : List ScenarioCommand) : Prop where
  perm : ordered.Perm commands
  sorted : ordered.Pairwise fun a b => a.precedes b = true
  stable : ∀ c : ScenarioCommand, ordered.filter c.level = commands.filter c.level

namespace DispatchOrder

variable {commands ordered ordered' : List ScenarioCommand}

/-- A loaded queue is in dispatch order. -/
theorem load (commands : List ScenarioCommand) : DispatchOrder commands (CommandQueue.load commands).pending where
  perm := List.mergeSort_perm commands _
  sorted := List.pairwise_mergeSort precedes_trans precedes_total commands
  stable c := by
    have together : (commands.filter c.level).Pairwise fun a b => a.precedes b = true := by
      refine List.pairwise_of_forall_mem_list fun a memA b memB => ?_
      have atA := (level_iff c a).mp (List.mem_filter.mp memA).2
      have atB := (level_iff c b).mp (List.mem_filter.mp memB).2
      simp only [precedes, decide_eq_true_eq]
      omega
    have kept : (commands.filter c.level).Sublist (commands.mergeSort precedes) :=
      List.sublist_mergeSort precedes_trans precedes_total together List.filter_sublist
    have among : (commands.filter c.level).Sublist ((commands.mergeSort precedes).filter c.level) := by
      simpa using kept.filter c.level
    have sameLength := ((List.mergeSort_perm commands precedes).filter c.level).length_eq
    exact (among.eq_of_length sameLength.symm).symm

/-- Leaving out commands leaves the others in dispatch order. -/
theorem filter (h : DispatchOrder commands ordered) (p : ScenarioCommand → Bool) :
    DispatchOrder (commands.filter p) (ordered.filter p) where
  perm := h.perm.filter p
  sorted := h.sorted.filter p
  stable c := by rw [List.filter_comm, h.stable c, List.filter_comm]

/-- The first command of one arrangement precedes the first of any other. -/
theorem precedes_head {a b : ScenarioCommand} {rest rest' : List ScenarioCommand}
    (h : DispatchOrder commands (a :: rest)) (h' : DispatchOrder commands (b :: rest')) : a.precedes b = true := by
  have among : b ∈ a :: rest := (h'.perm.trans h.perm.symm).mem_iff.mp List.mem_cons_self
  rcases List.mem_cons.mp among with rfl | later
  · simpa using precedes_total b b
  · exact (List.pairwise_cons.mp h.sorted).1 b later

theorem tail {a : ScenarioCommand} {rest rest' : List ScenarioCommand} (h : DispatchOrder commands (a :: rest))
    (h' : DispatchOrder commands (a :: rest')) : DispatchOrder rest' rest where
  perm := (h.perm.trans h'.perm.symm).cons_inv
  sorted := (List.pairwise_cons.mp h.sorted).2
  stable c := by
    have same := (h.stable c).trans (h'.stable c).symm
    simp only [List.filter_cons] at same
    split at same
    · exact List.tail_eq_of_cons_eq same
    · exact same

/-- The dispatch order is determined by the commands. -/
theorem unique (h : DispatchOrder commands ordered) (h' : DispatchOrder commands ordered') : ordered = ordered' := by
  induction ordered generalizing commands ordered' with
  | nil => exact (h'.perm.trans h.perm.symm).eq_nil.symm
  | cons a rest ih =>
    cases ordered' with
    | nil => exact absurd (h.perm.trans h'.perm.symm).eq_nil (List.cons_ne_nil a rest)
    | cons b rest' =>
      have level : a.level b = true := by simp [ScenarioCommand.level, h.precedes_head h', h'.precedes_head h]
      have self : a.level a = true := (level_iff a a).mpr ⟨rfl, rfl, rfl⟩
      have firsts := (h.stable a).trans (h'.stable a).symm
      rw [List.filter_cons_of_pos self, List.filter_cons_of_pos level] at firsts
      obtain rfl : a = b := List.head_eq_of_cons_eq firsts
      rw [ih (h.tail h') ⟨.refl rest', (List.pairwise_cons.mp h'.sorted).2, fun _ => rfl⟩]

/-- Of commands in dispatch order, those that are due by a second come first. -/
theorem takeWhile_due (h : DispatchOrder commands ordered) {p : ScenarioCommand → Bool}
    (downward : ∀ a b : ScenarioCommand, a.dueSecond ≤ b.dueSecond → p b = true → p a = true) :
    ordered.takeWhile p = ordered.filter p :=
  List.takeWhile_eq_filter (h.sorted.imp fun before => downward _ _ (dueSecond_le_of_precedes before))

end DispatchOrder

namespace CommandQueue

/-- Advances the queue to one second after the other, and collects what it hands out. -/
def advanceAll (q : CommandQueue) : List Nat → List ScenarioCommand × CommandQueue
  | [] => ([], q)
  | second :: rest =>
    let (due, q) := q.advance second
    let (later, q) := q.advanceAll rest
    (due ++ later, q)

/-- Whether a command is due by the largest of some seconds. -/
def dueBy (seconds : List Nat) (c : ScenarioCommand) : Bool := seconds.max?.any (c.dueSecond ≤ ·)

theorem dueBy_cons (second : Nat) (rest : List Nat) (c : ScenarioCommand) :
    dueBy (second :: rest) c = (decide (c.dueSecond ≤ second) || dueBy rest c) := by
  unfold dueBy
  rw [List.max?_cons]
  cases rest.max? with
  | none => simp
  | some largest => simp [Bool.decide_or]

/-- That is, if it is due by one of them. -/
theorem dueBy_iff (seconds : List Nat) (c : ScenarioCommand) :
    dueBy seconds c = true ↔ ∃ second ∈ seconds, c.dueSecond ≤ second := by
  induction seconds with
  | nil => simp [dueBy]
  | cons second rest ih => simp [dueBy_cons, ih]

/-- Of a command that is due at a second and one that is due by others, one condition implies the other. -/
theorem dueBy_nested (second : Nat) (rest : List Nat) :
    (∀ c : ScenarioCommand, decide (c.dueSecond ≤ second) = true → dueBy rest c = true) ∨
      ∀ c : ScenarioCommand, dueBy rest c = true → decide (c.dueSecond ≤ second) = true := by
  by_cases reaches : ∃ other ∈ rest, second ≤ other
  · obtain ⟨other, mem, le⟩ := reaches
    refine Or.inl fun c due => (dueBy_iff rest c).mpr ⟨other, mem, ?_⟩
    exact Nat.le_trans (of_decide_eq_true due) le
  · refine Or.inr fun c due => decide_eq_true ?_
    obtain ⟨other, mem, le⟩ := (dueBy_iff rest c).mp due
    have below : ¬ second ≤ other := fun le => reaches ⟨other, mem, le⟩
    omega

/-- Several advances are one split of the pending commands. -/
theorem advanceAll_eq (q : CommandQueue) (seconds : List Nat) :
    q.advanceAll seconds = (q.pending.takeWhile (dueBy seconds), { q with
      pending := q.pending.dropWhile (dueBy seconds)
      dispatched := q.dispatched + (q.pending.takeWhile (dueBy seconds)).length }) := by
  induction seconds generalizing q with
  | nil =>
    obtain ⟨pending, dispatched, cancelled⟩ := q
    cases pending with
    | nil => rfl
    | cons c rest => rfl
  | cons second rest ih =>
    have split := List.takeWhile_dropWhile (dueBy_nested second rest) q.pending
    have both : dueBy (second :: rest) = fun c => decide (c.dueSecond ≤ second) || dueBy rest c :=
      funext (dueBy_cons second rest)
    simp only [advanceAll, advance, ih]
    rw [both, ← split.1, ← split.2, List.length_append, Nat.add_assoc]

theorem advanceAll_append (q : CommandQueue) (first second : List Nat) : q.advanceAll (first ++ second) =
    ((q.advanceAll first).1 ++ ((q.advanceAll first).2.advanceAll second).1,
      ((q.advanceAll first).2.advanceAll second).2) := by
  induction first generalizing q with
  | nil => rfl
  | cons s rest ih => simp only [List.cons_append, advanceAll, ih, List.append_assoc]

/-- A command that is handed out is due by one of the seconds. -/
theorem due_of_mem_advanceAll {q : CommandQueue} {seconds : List Nat} {c : ScenarioCommand}
    (mem : c ∈ (q.advanceAll seconds).1) : ∃ second ∈ seconds, c.dueSecond ≤ second := by
  rw [advanceAll_eq] at mem
  exact (dueBy_iff seconds c).mp (List.mem_takeWhile_imp mem)

/-- The advances matter only through the commands that are due by one of them. -/
theorem advanceAll_congr (q : CommandQueue) {seconds seconds' : List Nat}
    (same : ∀ c : ScenarioCommand, dueBy seconds c = dueBy seconds' c) :
    q.advanceAll seconds = q.advanceAll seconds' := by
  rw [advanceAll_eq, advanceAll_eq, funext same]

/-- An advance comes to the same as any advances up to its second, the second among them. -/
theorem advanceAll_split (q : CommandQueue) (before after : List Nat) {parts : List Nat} {second : Nat}
    (among : second ∈ parts) (upTo : ∀ part ∈ parts, part ≤ second) :
    q.advanceAll (before ++ parts ++ after) = q.advanceAll (before ++ second :: after) := by
  refine q.advanceAll_congr fun c => Bool.eq_iff_iff.mpr ?_
  have byParts : (∃ part ∈ parts, c.dueSecond ≤ part) ↔ c.dueSecond ≤ second :=
    ⟨fun ⟨part, mem, le⟩ => Nat.le_trans le (upTo part mem), fun le => ⟨second, among, le⟩⟩
  simp only [dueBy_iff, List.mem_append, List.mem_cons, or_and_right, exists_or, byParts, exists_eq_left, or_assoc]

theorem dueBy_downward (seconds : List Nat) {a b : ScenarioCommand} (le : a.dueSecond ≤ b.dueSecond)
    (due : dueBy seconds b = true) : dueBy seconds a = true := by
  obtain ⟨second, mem, reaches⟩ := (dueBy_iff seconds b).mp due
  exact (dueBy_iff seconds a).mpr ⟨second, mem, Nat.le_trans le reaches⟩

/-- What an advance hands out after others has not been due by any of their seconds. -/
theorem lt_of_mem_advance {commands : List ScenarioCommand} {seconds : List Nat} {second : Nat} {c : ScenarioCommand}
    (mem : c ∈ (((load commands).advanceAll seconds).2.advance second).1) :
    c.dueSecond ≤ second ∧ ∀ s ∈ seconds, s < c.dueSecond := by
  have due := List.mem_takeWhile_imp mem
  refine ⟨of_decide_eq_true due, fun s among => Nat.lt_of_not_le fun reached => ?_⟩
  have pending : c ∈ ((load commands).advanceAll seconds).2.pending :=
    (List.takeWhile_prefix _).subset mem
  rw [advanceAll_eq] at pending
  have notDue : dueBy seconds c = false :=
    List.not_of_mem_dropWhile ((DispatchOrder.load commands).sorted.imp fun before =>
      dueBy_downward seconds (dueSecond_le_of_precedes before)) pending
  rw [(dueBy_iff seconds c).mpr ⟨s, among, reached⟩] at notDue
  cases notDue

/-- **The commands that are handed out.**  After the commands are loaded, advances to any seconds hand out, taken
together, the commands that are due by the largest of the seconds, in dispatch order.  The commands handed out and
those pending are as many as were loaded.  An advance that is split into several, up to the same second, hands
out the same and leaves the same queue. -/
theorem advanceAll_load (commands : List ScenarioCommand) (seconds : List Nat) :
    DispatchOrder (commands.filter (dueBy seconds)) ((load commands).advanceAll seconds).1 ∧
      ((load commands).advanceAll seconds).2.dispatched + ((load commands).advanceAll seconds).2.pending.length =
        commands.length ∧
      ∀ before parts after second, seconds = before ++ second :: after → second ∈ parts →
        (∀ part ∈ parts, part ≤ second) →
          (load commands).advanceAll (before ++ parts ++ after) = (load commands).advanceAll seconds := by
  have ordered := DispatchOrder.load commands
  refine ⟨?_, ?_, ?_⟩
  · rw [advanceAll_eq, ordered.takeWhile_due fun _ _ => dueBy_downward seconds]
    exact ordered.filter (dueBy seconds)
  · have all := congrArg List.length ((load commands).pending.takeWhile_append_dropWhile (p := dueBy seconds))
    rw [List.length_append] at all
    rw [advanceAll_eq, ← ordered.perm.length_eq]
    exact (congrArg (· + _) (Nat.zero_add _)).trans all
  · rintro before parts after second rfl among upTo
    exact advanceAll_split _ before after among upTo

/-- Commands that are loaded out of order. -/
def mixedScript : List ScenarioCommand :=
  [⟨5, 2, .set (.task .tracking) "title" "x", 1, 0⟩, ⟨5, 9, .set (.task .tracking) "title" "y", 2, 1⟩,
    ⟨1, 0, .act (.task .tracking) .start, 3, 2⟩, ⟨9, 0, .act .session .finish, 4, 3⟩]

/-- An advance to 5 is split, with a second that goes back and one that comes again; the last command is not due. -/
theorem advanceAll_load_mixedScript :
    (load mixedScript).advanceAll ([3] ++ [4, 5, 2, 5] ++ [0]) = (load mixedScript).advanceAll [3, 5, 0] ∧
      ((load mixedScript).advanceAll [3, 5, 0]).1.Perm (mixedScript.take 3) :=
  ⟨(advanceAll_load mixedScript [3, 5, 0]).2.2 [3] [4, 5, 2, 5] [0] 5 rfl (by decide) (by decide),
    (advanceAll_load mixedScript [3, 5, 0]).1.perm⟩

end CommandQueue

end Tandem
