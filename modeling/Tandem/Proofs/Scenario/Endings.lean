import Tandem.Proofs.Scenario.Dispatch
import Tandem.Proofs.Scenario.Lines
import Tandem.Scenario.Load
/-!
# How an accepted scenario ends

The strict policy looks at the commands in file order: at a command that all others precede, at how many commands share
its second, and at which tasks are used and started.  A queue hands the commands out in dispatch order.  Here the two
meet.  `problems_eq_nil_iff` says which lists are accepted, for any arrangement of their commands, and
`EndsLast.of_perm` carries the ending of one arrangement over to what a queue hands out.
-/

namespace Tandem

namespace Scenario

open ScenarioCommand

/-- The last of the commands ends the session, and every other one is due in an earlier second. -/
def EndsLast (commands : List ScenarioCommand) : Prop :=
  ∃ before last, commands = before ++ [last] ∧ last.payload = .act .session .finish ∧
    ∀ c ∈ before, c.dueSecond < last.dueSecond

/-- Every task that one of the commands addresses is started by one of them. -/
def StartsUsed (commands : List ScenarioCommand) : Prop :=
  ∀ c ∈ commands, ∀ t, c.payload.task? = some t → ∃ d ∈ commands, d.payload = .act (.task t) .start

/-- Some command addresses a task. -/
def UsesTask (commands : List ScenarioCommand) : Prop := ∃ c ∈ commands, ∃ t, c.payload.task? = some t

variable {commands ordered : List ScenarioCommand}

/-! ## The last command to run -/

/-- Of the commands seen so far, the fold keeps one that all of them precede. -/
theorem foldl_later (c : ScenarioCommand) (rest : List ScenarioCommand) :
    rest.foldl (fun last d => if last.precedes d then d else last) c ∈ c :: rest ∧
      ∀ d ∈ c :: rest, d.precedes (rest.foldl (fun last d => if last.precedes d then d else last) c) = true := by
  have self : ∀ d : ScenarioCommand, d.precedes d = true := fun d => by simpa using precedes_total d d
  induction rest generalizing c with
  | nil => exact ⟨List.mem_cons_self, fun d mem => List.mem_singleton.mp mem ▸ self d⟩
  | cons e rest ih =>
    rw [List.foldl_cons]
    obtain ⟨among, greatest⟩ := ih (if c.precedes e then e else c)
    have later : c.precedes (if c.precedes e then e else c) = true ∧
        e.precedes (if c.precedes e then e else c) = true := by
      split
      · rename_i before
        exact ⟨before, self e⟩
      · rename_i after
        exact ⟨self c, by simpa [after] using precedes_total c e⟩
    have reached := greatest _ List.mem_cons_self
    constructor
    · rcases List.mem_cons.mp among with same | mem
      · rw [same]
        split
        · exact List.mem_cons_of_mem _ List.mem_cons_self
        · exact List.mem_cons_self
      · exact List.mem_cons_of_mem _ (List.mem_cons_of_mem _ mem)
    · intro d mem
      rcases List.mem_cons.mp mem with rfl | mem
      · exact precedes_trans _ _ _ later.1 reached
      · rcases List.mem_cons.mp mem with rfl | mem
        · exact precedes_trans _ _ _ later.2 reached
        · exact greatest d (List.mem_cons_of_mem _ mem)

theorem lastToRun?_spec {last : ScenarioCommand} (h : lastToRun? commands = some last) :
    last ∈ commands ∧ ∀ c ∈ commands, c.precedes last = true := by
  cases commands with
  | nil => cases h
  | cons c rest =>
    cases h
    exact foldl_later c rest

/-! ## The ending in any arrangement -/

/-- In a list that can be arranged to end with one strictly later command, that command is the one that all commands
precede. -/
theorem eq_of_forall_precedes {before : List ScenarioCommand} {last m : ScenarioCommand}
    (arranged : commands.Perm (before ++ [last])) (later : ∀ c ∈ before, c.dueSecond < last.dueSecond)
    (mem : m ∈ commands) (greatest : ∀ c ∈ commands, c.precedes m = true) : m = last := by
  have le := dueSecond_le_of_precedes (greatest last (arranged.mem_iff.mpr (by simp)))
  rcases List.mem_append.mp (arranged.mem_iff.mp mem) with earlier | same
  · exact absurd (later m earlier) (by omega)
  · exact List.mem_singleton.mp same

/-- The commands in dispatch order end as any other arrangement of them does. -/
theorem EndsLast.of_perm (h : EndsLast ordered) (arranged : commands.Perm ordered)
    (sorted : commands.Pairwise fun a b => a.precedes b = true) : EndsLast commands := by
  obtain ⟨before, last, rfl, finishes, later⟩ := h
  have nonempty : commands ≠ [] := by
    rintro rfl
    simpa using arranged.length_eq
  obtain ⟨front, m, rfl⟩ : ∃ front m, commands = front ++ [m] :=
    ⟨_, _, (List.dropLast_append_getLast nonempty).symm⟩
  have greatest : ∀ c ∈ front ++ [m], c.precedes m = true := by
    intro c mem
    rcases List.mem_append.mp mem with earlier | same
    · exact (List.pairwise_append.mp sorted).2.2 c earlier m List.mem_cons_self
    · rw [List.mem_singleton.mp same]
      simpa using precedes_total m m
  obtain rfl := eq_of_forall_precedes arranged later (by simp) greatest
  have rest : front.Perm before := (List.perm_append_right_iff [m]).mp arranged
  exact ⟨front, m, rfl, finishes, fun c mem => later c (rest.mem_iff.mp mem)⟩

theorem StartsUsed.of_perm (h : StartsUsed ordered) (arranged : commands.Perm ordered) : StartsUsed commands := by
  intro c mem t addresses
  obtain ⟨d, among, starts⟩ := h c (arranged.mem_iff.mp mem) t addresses
  exact ⟨d, arranged.mem_iff.mpr among, starts⟩

theorem UsesTask.of_perm (h : UsesTask ordered) (arranged : commands.Perm ordered) : UsesTask commands := by
  obtain ⟨c, mem, addresses⟩ := h
  exact ⟨c, arranged.mem_iff.mpr mem, addresses⟩

/-- The check finds a lone end exactly if the commands can be arranged to end with it. -/
theorem endsAlone_iff : endsAlone commands = true ↔ ∃ ordered, commands.Perm ordered ∧ EndsLast ordered := by
  unfold endsAlone
  cases found : lastToRun? commands with
  | none =>
    have empty : commands = [] := by
      cases commands with
      | nil => rfl
      | cons c rest => cases found
    subst empty
    refine ⟨nofun, ?_⟩
    rintro ⟨ordered, arranged, before, last, rfl, -⟩
    simpa using arranged.length_eq
  | some m =>
    obtain ⟨mem, greatest⟩ := lastToRun?_spec found
    simp only [Bool.and_eq_true, decide_eq_true_eq]
    constructor
    · rintro ⟨finishes, alone⟩
      have split := List.perm_cons_erase mem
      refine ⟨commands.erase m ++ [m], split.trans (List.perm_append_singleton m _).symm, commands.erase m, m, rfl,
        finishes, fun c among => ?_⟩
      have others : (commands.erase m).countP (fun c => decide (c.dueSecond = m.dueSecond)) = 0 := by
        rw [split.countP_eq, List.countP_cons_of_pos (by simp)] at alone
        omega
      have le := dueSecond_le_of_precedes (greatest c (List.mem_of_mem_erase among))
      have ne := List.countP_eq_zero.mp others c among
      rw [decide_eq_true_eq] at ne
      omega
    · rintro ⟨ordered, arranged, before, last, rfl, finishes, later⟩
      obtain rfl := eq_of_forall_precedes arranged later mem greatest
      refine ⟨finishes, ?_⟩
      have others : before.countP (fun c => decide (c.dueSecond = m.dueSecond)) = 0 :=
        List.countP_eq_zero.mpr fun c among => by
          rw [decide_eq_true_eq]
          exact Nat.ne_of_lt (later c among)
      rw [arranged.countP_eq, List.countP_append, others, Nat.zero_add]
      exact List.countP_le_length

/-! ## What is accepted -/

theorem isUsed_iff {t : TaskId} : isUsed commands t = true ↔ ∃ c ∈ commands, c.payload.task? = some t := by
  simp [isUsed]

theorem isStarted_iff {t : TaskId} :
    isStarted commands t = true ↔ ∃ d ∈ commands, d.payload = .act (.task t) .start := by
  simp [isStarted]

/-- **What the strict policy accepts.**  Nothing is wrong with commands that can be arranged to end with a lone end, and
that address a task and start every task that they address. -/
theorem problems_eq_nil_iff : problems commands = [] ↔
    (∃ ordered, commands.Perm ordered ∧ EndsLast ordered) ∧ UsesTask commands ∧ StartsUsed commands := by
  have used : TaskId.all.any (isUsed commands) = true ↔ UsesTask commands := by
    rw [List.any_eq_true]
    constructor
    · rintro ⟨t, -, uses⟩
      obtain ⟨c, mem, addresses⟩ := isUsed_iff.mp uses
      exact ⟨c, mem, t, addresses⟩
    · rintro ⟨c, mem, t, addresses⟩
      exact ⟨t, TaskId.mem_all t, isUsed_iff.mpr ⟨c, mem, addresses⟩⟩
  have started : TaskId.all.filter (fun t => isUsed commands t && !isStarted commands t) = [] ↔
      StartsUsed commands := by
    rw [List.filter_eq_nil_iff]
    constructor
    · intro none c mem t addresses
      have clear := none t (TaskId.mem_all t)
      rw [isUsed_iff.mpr ⟨c, mem, addresses⟩, Bool.true_and, Bool.not_eq_true, Bool.not_eq_false'] at clear
      exact isStarted_iff.mp clear
    · intro all t _ missing
      rw [Bool.and_eq_true, Bool.not_eq_true'] at missing
      obtain ⟨c, mem, addresses⟩ := isUsed_iff.mp missing.1
      rw [isStarted_iff.mpr (all c mem t addresses)] at missing
      exact absurd missing.2 (by simp)
  rw [problems, List.append_eq_nil_iff, List.append_eq_nil_iff, List.map_eq_nil_iff, started, ← used,
    ← endsAlone_iff, and_assoc]
  simp

/-- A text that the strict policy loads has no problem. -/
theorem problems_of_load {known : ParameterCheck} {text : String}
    (loaded : load .failFast known text = .ok commands) : problems commands = [] := by
  unfold load at loaded
  obtain ⟨cs, -, accepted⟩ := Except.bind_eq_ok_iff.mp loaded
  split at accepted
  · cases accepted
  · rename_i noProblem
    cases accepted
    cases found : problems commands with
    | nil => rfl
    | cons problem rest => exact absurd found (noProblem problem rest rfl)

/-- A queue that is advanced far enough hands out all its commands, in dispatch order. -/
theorem dispatchOrder_of_reached {seconds : List Nat}
    (reached : ∃ second ∈ seconds, ∀ c ∈ commands, c.dueSecond ≤ second) :
    DispatchOrder commands ((CommandQueue.load commands).advanceAll seconds).1 := by
  have ordered := DispatchOrder.load commands
  obtain ⟨second, mem, all⟩ := reached
  have due : ∀ c ∈ (CommandQueue.load commands).pending, CommandQueue.dueBy seconds c = true := fun c among =>
    (CommandQueue.dueBy_iff seconds c).mpr ⟨second, mem, all c (ordered.perm.mem_iff.mp among)⟩
  rw [CommandQueue.advanceAll_eq, List.takeWhile_eq_self_iff.mpr due]
  exact ordered

/-- **Last and alone.**  An accepted text ends the session with its last command: a queue of its commands that is
advanced to or past the last due second, in any steps, hands out an end after all the others, in a second of its own,
and starts every task that it addresses.  Conversely, commands that can be arranged in this way, as a queue does or in
any other way, have no problem if they address a task. -/
theorem accepted_endsLast :
    (∀ (known : ParameterCheck) (text : String) (commands : List ScenarioCommand) (seconds : List Nat),
      load .failFast known text = .ok commands → (∃ second ∈ seconds, ∀ c ∈ commands, c.dueSecond ≤ second) →
        EndsLast ((CommandQueue.load commands).advanceAll seconds).1 ∧
          StartsUsed ((CommandQueue.load commands).advanceAll seconds).1) ∧
    ∀ commands ordered : List ScenarioCommand, commands.Perm ordered → EndsLast ordered → StartsUsed ordered →
      UsesTask ordered → problems commands = [] := by
  constructor
  · intro known text commands seconds loaded reached
    have dispatched := dispatchOrder_of_reached reached
    obtain ⟨⟨ordered, arranged, ending⟩, -, started⟩ := problems_eq_nil_iff.mp (problems_of_load loaded)
    exact ⟨ending.of_perm (dispatched.perm.trans arranged) dispatched.sorted, started.of_perm dispatched.perm⟩
  · intro commands ordered arranged ending started used
    exact problems_eq_nil_iff.mpr ⟨⟨ordered, arranged, ending⟩, used.of_perm arranged, started.of_perm arranged⟩

/-- A scenario whose end stands first. -/
def endFirst : String := "0:00:05;end\n# nothing here\n0:00:01;sysmon;start"

/-- The commands of `endFirst`. -/
def endFirstCommands : List ScenarioCommand :=
  [⟨5, 0, .act .session .finish, 1, 0⟩, ⟨1, 0, .act (.task .monitoring) .start, 3, 1⟩]

theorem accepted_endsLast_endFirst :
    EndsLast ((CommandQueue.load endFirstCommands).advanceAll [3, 7]).1 ∧ problems endFirstCommands = [] := by
  have loaded : load .failFast acceptAll endFirst = .ok endFirstCommands := by decide +kernel
  have reached : ∃ second ∈ [3, 7], ∀ c ∈ endFirstCommands, c.dueSecond ≤ second := ⟨7, by decide, by decide⟩
  have used : UsesTask endFirstCommands := ⟨_, List.mem_cons_of_mem _ List.mem_cons_self, .monitoring, rfl⟩
  have arranged := (dispatchOrder_of_reached reached).perm
  obtain ⟨ending, started⟩ := accepted_endsLast.1 acceptAll endFirst endFirstCommands [3, 7] loaded reached
  exact ⟨ending, accepted_endsLast.2 endFirstCommands _ arranged.symm ending started (used.of_perm arranged)⟩

end Scenario

end Tandem
