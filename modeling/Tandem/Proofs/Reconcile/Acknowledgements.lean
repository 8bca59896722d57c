import Mathlib.Data.Bool.Count
import Tandem.Proofs.Reconcile.Messages
import Tandem.Proofs.Task.Counters
/-!
# No acknowledgement is lost

An acknowledgement of a gauge is counted on the side of its participant, run once more on the other side, where the
gauge and the counters may be different, and then overwritten by the delta.  Acknowledgements of both participants
cross on their way, commands of the script come in between, and messages come again.  Once every message has been
taken, both sides show for each participant what the side of the participant has counted
(`Setting.acknowledgements_counted`).

`Side.Tallies` is what holds of one side at any time, and each move keeps it.  It joins two things.

* On the own side nobody else writes the counters of the participant (`AckLog.writeAt?_eq_none`,
  `Battery.scriptedAt_counter`).  An acknowledgement is stamped above every cell of the monitoring task
  (`Battery.Monitors`), so it always takes effect, adds one (`Tallies.counts_acknowledge`), and is told in full.
* A counter shows the newest of all that has been told about it, but for an acknowledgement whose delta is still to come
  (`Explains`, with nothing from the script).

Other tasks may be in the local network mode on either side.  What is told about them is stamped by the same clocks but
does not touch the monitoring task.
-/

namespace Tandem

/-! ## The monitoring task of a battery -/

/-- What holds of the monitoring task at any time: its gauges are those it starts with, and the clock is not behind any
of its cells. -/
structure Battery.Monitors (b : Battery) (clock : StampClock) : Prop where
  task : (b.store.read .monitoring).task = .monitoring
  gauges : ∀ g : Gauge, (b.cell? .monitoring g.failureKey).isSome = g.isInstalled
  dominated : ∀ key cell, b.cell? .monitoring key = some cell → cell.stamp.moment ≤ clock.moment

/-- The monitoring task is shared unless it is in the local network mode. -/
theorem TaskState.isShared_of_network {s : TaskState} (task : s.task = .monitoring)
    (network : s.text "network" ≠ "no") : s.isShared = true := by
  rw [isShared, task]
  simpa [TaskId.takesInput] using network

namespace Battery.Monitors

variable {b b' : Battery} {clock clock' : StampClock}

theorem new (capacity : Nat) (participants : ParticipantId × ParticipantId) (clock : StampClock) :
    (Battery.new capacity participants).Monitors clock where
  task := Battery.task_read_new capacity participants .monitoring
  gauges g := by
    rw [cell?_new, Bool.eq_iff_iff]
    constructor
    · intro found
      obtain ⟨cell, found⟩ := Option.isSome_iff_exists.mp found
      have mem := (TaskState.mem_defaults_of_cell?_initial found).1
      exact List.any_eq_true.mpr ⟨_, mem, decide_eq_true rfl⟩
    · intro installed
      obtain ⟨field, mem, same⟩ := List.any_eq_true.mp installed
      exact TaskState.isSome_cell?_initial ⟨field, mem, of_decide_eq_true same⟩
  dominated key cell found := by
    rw [cell?_new] at found
    rw [(TaskState.mem_defaults_of_cell?_initial found).2]
    exact Nat.zero_le _

/-- The monitoring task is left as it is. -/
theorem same (h : b.Monitors clock) (later : clock.moment ≤ clock'.moment)
    (read : b'.store.read .monitoring = b.store.read .monitoring) : b'.Monitors clock' := by
  have cells : ∀ key, b'.cell? .monitoring key = b.cell? .monitoring key := fun key =>
    congrArg (TaskState.cell? · key) read
  exact ⟨read ▸ h.task, fun g => cells g.failureKey ▸ h.gauges g,
    fun key cell found => Nat.le_trans (h.dominated key cell (cells key ▸ found)) later⟩

/-- Writes that the clock has seen, to no failure of a gauge that is not there. -/
theorem write (h : b.Monitors clock) (later : clock.moment ≤ clock'.moment)
    (task : (b'.store.read .monitoring).task = (b.store.read .monitoring).task) {writes : FieldKey → List FieldChange}
    (cells : ∀ key, b'.cell? .monitoring key = (writes key).foldl writeCell (b.cell? .monitoring key))
    (seen : ∀ key, ∀ c ∈ writes key, c.stamp.moment ≤ clock'.moment)
    (installed : ∀ g : Gauge, ∀ c ∈ writes g.failureKey, g.isInstalled = true) : b'.Monitors clock' where
  task := task.trans h.task
  gauges g := by
    rw [cells]
    cases there : g.isInstalled with
    | true => exact isSome_foldl_writeCell _ ((h.gauges g).trans there)
    | false =>
      have none : writes g.failureKey = [] := by
        refine List.eq_nil_iff_forall_not_mem.mpr fun c mem => ?_
        rw [installed g c mem] at there
        cases there
      rw [none]
      exact (h.gauges g).trans there
  dominated key cell found := by
    rw [cells] at found
    rcases foldl_writeCell_origin found with before | ⟨c, mem, rfl⟩
    · exact Nat.le_trans (h.dominated key cell before) later
    · exact seen key c mem

/-- A command of the script. -/
theorem run (h : b.Monitors clock) {c : ScenarioCommand} (known : c.SetsKnown) :
    (b.run c).1.Monitors (clock.observe c.stamp) := by
  obtain ⟨later, seen⟩ := clock.moment_observe c.stamp
  refine h.write later (b.task_read_run c _) (b.cell?_run c _) (fun key d mem => ?_) fun g d mem => ?_
  · obtain ⟨task, made, -⟩ := Battery.mem_scriptedAt mem
    rw [(Battery.scriptWrite task made).1]
    exact seen
  · exact Battery.isInstalled_of_scriptedAt h.task known mem

/-- The writes of an acknowledgement of a gauge that is there. -/
theorem apply (h : b.Monitors clock) {stamp : Stamp} {p : ParticipantId} {g : Gauge} {changes : List FieldChange}
    (writes : InputWrites stamp (.monitoringAck g) changes) (writer : stamp.writer = .participant p)
    (later : clock.moment ≤ clock'.moment) (seen : changes ≠ [] → stamp.moment ≤ clock'.moment)
    (installed : changes ≠ [] → g.isInstalled = true) (origin : Origin) :
    (b.apply ⟨.monitoring, origin, changes⟩).1.Monitors clock' := by
  refine h.write later (b.task_read_apply _ _) (b.cell?_apply _ .monitoring) (fun key c mem => ?_) fun g' c mem => ?_
  · obtain ⟨-, made, -⟩ := Mutation.mem_writesAt mem
    rw [writes.stamp_eq made]
    exact seen (List.ne_nil_of_mem made)
  · obtain ⟨-, made, failure⟩ := Mutation.mem_writesAt mem
    have same := writes.failureKey_eq writer made failure
    have there := installed (List.ne_nil_of_mem made)
    unfold Gauge.isInstalled at there ⊢
    rw [same]
    exact there

/-- An acknowledgement that writes something is about a gauge that is there. -/
theorem isInstalled_of_changes (h : b.Monitors clock) {g : Gauge} {stamp : Stamp}
    (wrote : (b.store.read .monitoring).inputChanges (.monitoringAck g) stamp ≠ []) : g.isInstalled = true := by
  cases there : g.isInstalled with
  | true => rfl
  | false =>
    refine absurd (TaskState.inputChanges_acknowledge_eq_nil fun both => ?_) wrote
    have present := (h.gauges g).symm.trans both.1
    rw [there] at present
    cases present

end Battery.Monitors

/-! ## What a side tells about the monitoring task -/

/-- The exchanges of a participant, in order.  Those about the monitoring task are acknowledgements of gauges that are
there. -/
structure AckLog (p : ParticipantId) (xs : List Exchange) : Prop where
  writer : ∀ x ∈ xs, x.stamp.writer = .participant p
  rising : xs.Pairwise (fun x y => x.stamp < y.stamp)
  genuine : ∀ x ∈ xs, x.event.target = .monitoring → x.Genuine p
  installed : ∀ x ∈ xs, x.event.target = .monitoring →
    ∃ g : Gauge, x.event.payload = .monitoringAck g ∧ g.isInstalled = true

/-- The exchanges about the monitoring task. -/
def monitored (xs : List Exchange) : List Exchange := xs.filter (fun x => x.event.target = .monitoring)

theorem written_monitored {xs : List Exchange} {key : FieldKey} {c : FieldChange} :
    Written (monitored xs) .monitoring key c ↔ Written xs .monitoring key c := by
  constructor
  · rintro ⟨x, mem, made⟩
    exact ⟨x, (List.mem_filter.mp mem).1, made⟩
  · rintro ⟨x, mem, made⟩
    exact ⟨x, List.mem_filter.mpr ⟨mem, decide_eq_true (Exchange.mem_of_writeAt? made).1⟩, made⟩

namespace AckLog

variable {p q : ParticipantId} {xs ys : List Exchange} {key : FieldKey} {c d : FieldChange} {x : Exchange}

theorem nil (p : ParticipantId) : AckLog p [] :=
  ⟨fun _ mem => absurd mem List.not_mem_nil, .nil, fun _ mem => absurd mem List.not_mem_nil,
    fun _ mem => absurd mem List.not_mem_nil⟩

theorem take (log : AckLog p xs) (n : Nat) : AckLog p (xs.take n) where
  writer x mem := log.writer x (List.mem_of_mem_take mem)
  rising := log.rising.sublist (List.take_sublist n xs)
  genuine x mem := log.genuine x (List.mem_of_mem_take mem)
  installed x mem := log.installed x (List.mem_of_mem_take mem)

/-- One more exchange. -/
theorem concat (log : AckLog p xs) (writer : x.stamp.writer = .participant p) (above : ∀ y ∈ xs, y.stamp < x.stamp)
    (genuine : x.event.target = .monitoring → x.Genuine p) (installed : x.event.target = .monitoring →
      ∃ g : Gauge, x.event.payload = .monitoringAck g ∧ g.isInstalled = true) : AckLog p (xs ++ [x]) where
  writer y mem := by
    rcases List.mem_append.mp mem with before | last
    · exact log.writer y before
    · exact List.mem_singleton.mp last ▸ writer
  rising := List.pairwise_append.mpr ⟨log.rising, List.pairwise_singleton _ _,
    fun y mem z last => List.mem_singleton.mp last ▸ above y mem⟩
  genuine y mem := by
    rcases List.mem_append.mp mem with before | last
    · exact log.genuine y before
    · exact List.mem_singleton.mp last ▸ genuine
  installed y mem := by
    rcases List.mem_append.mp mem with before | last
    · exact log.installed y before
    · exact List.mem_singleton.mp last ▸ installed

/-- Those about the monitoring task are a log of genuine exchanges. -/
theorem exchangeLog (log : AckLog p xs) : ExchangeLog p (monitored xs) where
  genuine x mem := by
    obtain ⟨mem, target⟩ := List.mem_filter.mp mem
    exact log.genuine x mem (of_decide_eq_true target)
  rising := log.rising.filter _

/-- One stamp, one write. -/
theorem eq_of_written (log : AckLog p xs) (log' : AckLog q ys) (differ : p ≠ q)
    (first : Written (xs ++ ys) .monitoring key c) (second : Written (xs ++ ys) .monitoring key d)
    (same : c.stamp = d.stamp) : c = d := by
  rw [← written_monitored, monitored, List.filter_append] at first second
  exact log.exchangeLog.eq_of_written_append log'.exchangeLog differ first second same

/-- A write that has been told was not told under the stamp of a later exchange of the other side. -/
theorem stamp_ne (log : AckLog p xs) (log' : AckLog q ys) (differ : p ≠ q) {i : Nat} (next : ys[i]? = some x)
    (written : Written (xs ++ ys.take i) .monitoring key c) : c.stamp ≠ x.stamp := by
  intro same
  rcases written_append.mp written with own | ⟨y, mem, made⟩
  · have writer := log.exchangeLog.writer_eq (written_monitored.mpr own)
    rw [same, log'.writer x (List.mem_of_getElem? next)] at writer
    exact differ (Writer.participant.inj writer).symm
  · have before : y.stamp < x.stamp := by
      obtain ⟨j, hj, rfl⟩ := List.mem_iff_getElem.mp mem
      obtain ⟨hi, rfl⟩ := List.getElem?_eq_some_iff.mp next
      rw [List.length_take] at hj
      rw [List.getElem_take]
      exact List.pairwise_iff_getElem.mp log'.rising j i (by omega) hi (by omega)
    have own := (log'.genuine y (List.mem_of_mem_take mem) (Exchange.mem_of_writeAt? made).1).stamp_eq made
    rw [← own, same] at before
    exact Std.lt_irrefl before

/-- A counter that has been written is one of the participant. -/
theorem counter_eq (log : AckLog p xs) (written : Written xs .monitoring key c)
    (counter : key.begins "performance-" = true) :
    key = TaskState.hitKey p ∨ key = TaskState.falseAlarmKey p := by
  obtain ⟨x, mem, wrote⟩ := written
  obtain ⟨target, made, rfl⟩ := Exchange.mem_of_writeAt? wrote
  have genuine := log.genuine x mem target
  obtain ⟨g, payload, -⟩ := log.installed x mem target
  exact (payload ▸ genuine.writes).counter_eq genuine.writer made counter

/-- The counters of the other participant are left alone. -/
theorem writeAt?_eq_none (log : AckLog q ys) (differ : p ≠ q) (mem : x ∈ ys)
    (own : key = TaskState.hitKey p ∨ key = TaskState.falseAlarmKey p) : x.writeAt? .monitoring key = none := by
  cases made : x.writeAt? .monitoring key with
  | none => rfl
  | some c =>
    have written : Written ys .monitoring key c := ⟨x, mem, made⟩
    rcases own with rfl | rfl
    · rcases log.counter_eq written (begins_hitKey p) with same | same
      · exact absurd (hitKey_inj same) differ
      · exact absurd same (hitKey_ne_falseAlarmKey p q)
    · rcases log.counter_eq written (begins_falseAlarmKey p) with same | same
      · exact absurd same.symm (hitKey_ne_falseAlarmKey q p)
      · exact absurd (falseAlarmKey_inj same) differ

end AckLog

/-! ## One side -/

/-- Counting one more verdict. -/
theorem ofNat_count_concat (verdicts : List Bool) (v w : Bool) :
    Int64.ofNat ((verdicts ++ [v]).count w) = Int64.ofNat (verdicts.count w) + if v = w then 1 else 0 := by
  rw [List.count_append, Int64.ofNat_add, List.count_singleton]
  by_cases same : v = w
  · simp [same]
  · simp [same]

namespace Side

/-- What an input of the participant counts as: a hit or a false alarm if it acknowledges a gauge that is there while
the monitoring task runs and is not paused, and nothing otherwise. -/
def verdict? (a : Side) : InputPayload → Option Bool
  | .monitoringAck g =>
    let monitoring := a.battery.store.read .monitoring
    if g.isInstalled = true ∧ monitoring.acceptsInput = true then some (monitoring.isFailing g) else none
  | _ => none

/-- What holds of a side at any time, when its participant `p` has told `mine`, the participant `q` of the other side
`theirs`, and the acknowledgements of `p` have been judged as in `verdicts`. -/
structure Tallies (p q : ParticipantId) (mine theirs : List Exchange) (verdicts : List Bool) (a : Side) : Prop where
  speaks : a.Speaks p mine
  log : AckLog p mine
  monitors : a.battery.Monitors a.reconciler.clock
  taken : a.taken ≤ 2 * theirs.length
  /-- The last input that has been looked at is one that has been taken. -/
  high : ∀ top, a.reconciler.remoteHigh.get? q = some top → ∃ i x, 2 * i < a.taken ∧ theirs[i]? = some x ∧ x.stamp = top
  /-- An acknowledgement that has been taken is known. -/
  known : ∀ i x, 2 * i < a.taken → theirs[i]? = some x → x.event.target = .monitoring →
    a.reconciler.isRepeated q x.stamp = true
  counters : ∀ key : FieldKey, key.begins "performance-" = true →
    Explains none (Written (mine ++ theirs.take (a.taken / 2)) .monitoring key) (a.awaited theirs .monitoring key)
      (a.battery.cell? .monitoring key)
  hits : (a.battery.store.read .monitoring).int (TaskState.hitKey p) = Int64.ofNat (verdicts.count true)
  falseAlarms : (a.battery.store.read .monitoring).int (TaskState.falseAlarmKey p) = Int64.ofNat (verdicts.count false)

variable {p q : ParticipantId} {mine theirs : List Exchange} {verdicts : List Bool} {a a' : Side} {x : Exchange}

theorem tallies_new (capacity : Nat) (pair : ParticipantId × ParticipantId) (p q : ParticipantId) :
    Tallies p q [] [] [] (.new capacity pair p) := by
  have absent : ∀ key : FieldKey, key.begins "performance-" = true →
      (Side.new capacity pair p).battery.cell? .monitoring key = none := by
    intro key counter
    rw [Side.new, Battery.cell?_new]
    exact TaskState.cell?_initial_counter counter
  exact
    { speaks := ⟨rfl, rfl, fun _ mem => absurd mem List.not_mem_nil⟩
      log := .nil p
      monitors := .new capacity pair _
      taken := Nat.zero_le _
      high := fun top found => by cases found
      known := fun i x before => absurd before (Nat.not_lt_zero _)
      counters := fun key counter => by
        rw [absent key counter, List.take_nil]
        exact .settled (.script fun c ⟨x, mem, _⟩ => absurd mem List.not_mem_nil)
      hits := TaskState.int_of_absent (absent _ (begins_hitKey p))
      falseAlarms := TaskState.int_of_absent (absent _ (begins_falseAlarmKey p)) }

namespace Tallies

/-- The other side tells more. -/
theorem told (h : Tallies p q mine theirs verdicts a) (more : List Exchange) :
    Tallies p q mine (theirs ++ more) verdicts a :=
  { h with
    taken := by
      have taken := h.taken
      rw [List.length_append]
      omega
    high := fun top found => by
      obtain ⟨i, x, before, there, same⟩ := h.high top found
      exact ⟨i, x, before, (List.getElem?_append_left (List.getElem?_eq_some_iff.mp there).1).trans there, same⟩
    known := fun i x before there => by
      have taken := h.taken
      rw [List.getElem?_append_left (by omega)] at there
      exact h.known i x before there
    counters := fun key counter => explains_told h.taken more (h.counters key counter) }

/-- A command of the script. -/
theorem playNext (h : Tallies p q mine theirs verdicts a) {script : List ScenarioCommand}
    (known : ∀ c ∈ script, c.SetsKnown) : Tallies p q mine theirs verdicts (a.playNext script) := by
  have speaks := h.speaks.playNext script
  unfold Side.playNext at speaks ⊢
  cases next : script[a.played]? with
  | none => exact h
  | some c =>
    rw [next] at speaks
    have setsKnown := known c (List.mem_of_getElem? next)
    have cells : ∀ key : FieldKey, key.begins "performance-" = true →
        (a.battery.run c).1.cell? .monitoring key = a.battery.cell? .monitoring key := by
      intro key counter
      rw [Battery.cell?_run, Battery.scriptedAt_counter h.monitors.task setsKnown counter]
      rfl
    exact
      { speaks := speaks
        log := h.log
        monitors := h.monitors.run setsKnown
        taken := h.taken
        high := h.high
        known := h.known
        counters := fun key counter => by
          show Explains none _ (a.awaited theirs .monitoring key) ((a.battery.run c).1.cell? .monitoring key)
          rw [cells key counter]
          exact h.counters key counter
        hits := (TaskState.int_congr (cells _ (begins_hitKey p))).trans h.hits
        falseAlarms := (TaskState.int_congr (cells _ (begins_falseAlarmKey p))).trans h.falseAlarms }

/-- An input to another task. -/
theorem inputOther (h : Tallies p q mine theirs verdicts a) (room : a.reconciler.clock.HasRoom) {e : InputEvent}
    (other : e.target ≠ .monitoring) (now : SessionTime) :
    ∃ more, Tallies p q (mine ++ more) theirs verdicts (a.input e now) := by
  obtain ⟨ahead, level⟩ := StampClock.moment_issue room now
  obtain ⟨clock, high, battery, -⟩ := a.reconciler.onLocalInput_outcome a.battery e now
  obtain ⟨more, speaks, told⟩ := h.speaks.input room e now
  have only : ∀ x ∈ more, x.event = e ∧ x.stamp = (a.reconciler.clock.issue now).1 := by
    intro x mem
    rcases told with rfl | ⟨outcome, -, rfl⟩
    · exact absurd mem List.not_mem_nil
    · rw [List.mem_singleton.mp mem]
      exact ⟨rfl, rfl⟩
  have log : AckLog p (mine ++ more) := by
    rcases told with rfl | ⟨outcome, -, rfl⟩
    · rw [List.append_nil]
      exact h.log
    · exact h.log.concat (h.speaks.writer_issue now) (fun y mem => h.speaks.lt_issue room now mem)
        (fun target => absurd target other) fun target => absurd target other
  have read : (a.input e now).battery.store.read .monitoring = a.battery.store.read .monitoring := by
    show (a.reconciler.onLocalInput a.battery e now).2.1.store.read .monitoring = _
    rw [battery]
    exact a.battery.read_applyInput_of_ne other _ _
  have later : a.reconciler.clock.moment ≤ (a.input e now).reconciler.clock.moment := by
    show _ ≤ (a.reconciler.onLocalInput a.battery e now).1.clock.moment
    rw [clock]
    omega
  refine ⟨more,
    { speaks := speaks
      log := log
      monitors := h.monitors.same later read
      taken := h.taken
      high := fun top found => h.high top (high ▸ found)
      known := fun i x before there target => ?_
      counters := fun key counter => ?_
      hits := read ▸ h.hits
      falseAlarms := read ▸ h.falseAlarms }⟩
  · show (a.reconciler.onLocalInput a.battery e now).1.isRepeated q x.stamp = true
    unfold Reconciler.isRepeated
    rw [high]
    exact h.known i x before there target
  · have untold : ∀ c, Written more .monitoring key c ↔ none = some c := by
      refine fun c => iff_of_false ?_ nofun
      rintro ⟨x, mem, made⟩
      exact other ((only x mem).1 ▸ (Exchange.mem_of_writeAt? made).1)
    show Explains none _ (a.awaited theirs .monitoring key) ((a.input e now).battery.cell? .monitoring key)
    rw [Battery.cell?, read]
    exact explains_entered untold nofun (h.counters key counter)

/-- What an acknowledgement does to the counters of its participant, under a stamp above their cells. -/
theorem counts_acknowledge (h : Tallies p q mine theirs verdicts a) {g : Gauge} {stamp : Stamp}
    (writer : stamp.writer = .participant p) (above : ∀ key, Below (a.battery.cell? .monitoring key) stamp)
    {m : Mutation} (task : m.task = .monitoring)
    (changes : m.changes = (a.battery.store.read .monitoring).inputChanges (.monitoringAck g) stamp) :
    ((a.battery.apply m).1.store.read .monitoring).int (TaskState.hitKey p) =
        Int64.ofNat ((verdicts ++ (a.verdict? (.monitoringAck g)).toList).count true) ∧
      ((a.battery.apply m).1.store.read .monitoring).int (TaskState.falseAlarmKey p) =
        Int64.ofNat ((verdicts ++ (a.verdict? (.monitoringAck g)).toList).count false) := by
  have writes := (a.battery.store.read .monitoring).inputWrites (.monitoringAck g) stamp
  rw [← changes] at writes
  have cells := a.battery.cell?_apply_of_apart writes.apart .monitoring
  simp only [Mutation.writeAt?, if_pos task] at cells
  by_cases counts : g.isInstalled = true ∧ (a.battery.store.read .monitoring).acceptsInput = true
  · obtain ⟨installed, takes⟩ := counts
    have present := (h.monitors.gauges g).trans installed
    have verdict : a.verdict? (.monitoringAck g) = some ((a.battery.store.read .monitoring).isFailing g) :=
      if_pos ⟨installed, takes⟩
    rw [TaskState.inputChanges_acknowledge present takes writer] at changes
    -- Both counters are written, and what is written stands.
    have shows : ∀ c ∈ m.changes, ∀ n, c.value = .int n → c.stamp = stamp →
        ((a.battery.apply m).1.store.read .monitoring).int c.key = n := by
      intro c mem n value stamped
      have cell := cells c.key
      rw [writeAt?_of_mem writes.apart mem] at cell
      have written := cell.trans (writeCell_of_below (stamped ▸ above c.key))
      rw [value] at written
      exact TaskState.int_of_cell? written
    have hits := shows _ (changes ▸ List.mem_cons_self) _ rfl rfl
    have falseAlarms := shows _ (changes ▸ List.mem_cons_of_mem _ List.mem_cons_self) _ rfl rfl
    rw [verdict, Option.toList_some, ofNat_count_concat, ofNat_count_concat, ← h.hits, ← h.falseAlarms, hits,
      falseAlarms]
    cases (a.battery.store.read .monitoring).isFailing g <;> exact ⟨rfl, rfl⟩
  · have verdict : a.verdict? (.monitoringAck g) = none := if_neg counts
    have nothing : m.changes = [] := by
      rw [changes]
      refine TaskState.inputChanges_acknowledge_eq_nil fun both => counts ⟨?_, both.2⟩
      exact (h.monitors.gauges g).symm.trans both.1
    have still : ∀ key, (a.battery.apply m).1.cell? .monitoring key = a.battery.cell? .monitoring key := by
      intro key
      rw [cells, nothing]
      rfl
    rw [verdict, Option.toList_none, List.append_nil]
    exact ⟨(TaskState.int_congr (still _)).trans h.hits, (TaskState.int_congr (still _)).trans h.falseAlarms⟩

section

variable {e : InputEvent} {g : Gauge} {now : SessionTime} (h : Tallies p q mine theirs verdicts a)
  (target : e.target = .monitoring) (payload : e.payload = .monitoringAck g)

include h target payload

theorem isInstalled_of_changes (wrote : (a.exchange e now).changes ≠ []) : g.isInstalled = true := by
  refine Battery.Monitors.isInstalled_of_changes h.monitors (?_ : TaskState.inputChanges _ _ (a.reconciler.clock.issue now).1 ≠ [])
  rw [← target, ← payload]
  exact wrote

/-- The log goes on with what comes of an acknowledgement. -/
theorem log_told (room : a.reconciler.clock.HasRoom) (origin : e.origin = p) : AckLog p (mine ++ a.told e now) := by
  have own := h.speaks.writer_issue now
  unfold Side.told
  split
  · rw [List.append_nil]
    exact h.log
  · rename_i wrote
    refine h.log.concat own (fun y mem => h.speaks.lt_issue room now mem) (fun _ => ?_) fun _ =>
      ⟨g, payload, h.isInstalled_of_changes target payload wrote⟩
    exact
      { origin := origin
        target := by
          show e.target = e.payload.task
          rw [target, payload]
          rfl
        unmatched := by
          show e.payload.task ≠ .matching
          rw [payload]
          nofun
        writer := own
        writes := TaskState.inputWrites _ _ _
        wrote := wrote }

/-- An acknowledgement is told in full, or it has no effect. -/
theorem inputAcknowledge (room : a.reconciler.clock.HasRoom) (origin : e.origin = p)
    (network : ((a.input e now).battery.store.read .monitoring).text "network" ≠ "no") :
    Tallies p q (mine ++ a.told e now) theirs (verdicts ++ (a.verdict? e.payload).toList) (a.input e now) := by
  obtain ⟨ahead, level⟩ := StampClock.moment_issue room now
  have own := h.speaks.writer_issue now
  have unmatched : e.payload.task ≠ .matching := by
    rw [payload]
    nofun
  have above : ∀ key, Below (a.battery.cell? .monitoring key) (a.reconciler.clock.issue now).1 := fun key held found =>
    Stamp.lt_of_moment_lt (Nat.lt_of_le_of_lt (h.monitors.dominated key held found) ahead)
  have writes : InputWrites (a.reconciler.clock.issue now).1 e.payload (a.exchange e now).changes :=
    TaskState.inputWrites _ _ _
  generalize mutation : (⟨e.target, .localInput e.origin, (a.exchange e now).changes⟩ : Mutation) = m
  have changes : m.changes = (a.exchange e now).changes := mutation ▸ rfl
  have task : m.task = .monitoring := mutation ▸ target
  obtain ⟨clock, high, battery, messages⟩ :=
    Reconciler.onLocalInput_spec (r := a.reconciler) (b := a.battery) unmatched mutation.symm
  have entered : (a.input e now).battery = (a.battery.apply m).1 := battery
  have ticked : (a.input e now).reconciler.clock = (a.reconciler.clock.issue now).2 := clock
  -- Everything is above the cells there, so that the delta holds all that the input has written.
  have applied : (a.battery.apply m).2.applied = (a.exchange e now).changes := by
    rw [a.battery.applied_apply (changes ▸ writes.apart), changes]
    intro c mem held found
    rw [changes] at mem
    exact writes.stamp_eq mem ▸ above c.key held (task ▸ found)
  have sent : (a.input e now).sent = a.sent ++ (a.told e now).flatMap Exchange.messages := by
    show a.sent ++ (a.reconciler.onLocalInput a.battery e now).2.2 = _
    rw [messages, Outcome.isNoop, applied, Side.told]
    by_cases nothing : (a.exchange e now).changes = []
    · rw [nothing]
      rfl
    · have shared : ((a.battery.apply m).1.store.read e.target).isShared = true := by
        rw [target]
        exact TaskState.isShared_of_network ((a.battery.task_read_apply m _).trans h.monitors.task) (entered ▸ network)
      rw [if_neg nothing, if_neg (by simp [nothing, shared])]
      rfl
  have counts := h.counts_acknowledge own above task (changes.trans (by
    show (a.battery.store.read e.target).inputChanges e.payload _ = _
    rw [target, payload]))
  rw [← payload, ← entered] at counts
  exact
    { speaks := h.speaks.tell room clock sent fun x mem => by
        obtain ⟨rfl, -⟩ := mem_told mem
        rfl
      log := h.log_told target payload room origin
      monitors := by
        rw [entered, ticked, ← mutation, target]
        exact h.monitors.apply (payload ▸ writes) own (by omega) (fun _ => Nat.le_of_eq level.symm)
          (h.isInstalled_of_changes target payload) _
      taken := h.taken
      high := fun top found => h.high top (high ▸ found)
      known := fun i x before there about => by
        show (a.reconciler.onLocalInput a.battery e now).1.isRepeated q x.stamp = true
        unfold Reconciler.isRepeated
        rw [high]
        exact h.known i x before there about
      counters := fun key counter => by
        show Explains none _ (a.awaited theirs .monitoring key) ((a.input e now).battery.cell? .monitoring key)
        have cells : (a.battery.apply m).1.cell? .monitoring key = ((a.exchange e now).writeAt? .monitoring key).elim
            (a.battery.cell? .monitoring key) (writeCell (a.battery.cell? .monitoring key)) :=
          (a.battery.cell?_apply_of_apart (changes ▸ writes.apart) .monitoring key).trans (mutation ▸ rfl)
        rw [entered, cells]
        refine explains_entered (fun c => written_told) (fun c made => ?_) (h.counters key counter)
        have stamp : c.stamp = (a.exchange e now).stamp := writes.stamp_eq (Exchange.mem_of_writeAt? made).2.1
        exact stamp ▸ above key
      hits := counts.1
      falseAlarms := counts.2 }

end

section

variable (h : Tallies p q mine theirs verdicts a) (log : AckLog q theirs)

include h log

omit log in
/-- A side after it has taken a message. -/
theorem takes {m : SyncMessage} {n : Nat} (upTo : n ≤ 2 * theirs.length)
    (monitors : (a.take q m).battery.Monitors (a.take q m).reconciler.clock)
    (high : ∀ top, (a.take q m).reconciler.remoteHigh.get? q = some top →
      ∃ i x, 2 * i < n ∧ theirs[i]? = some x ∧ x.stamp = top)
    (known : ∀ i x, ¬ 2 * i < a.taken → 2 * i < n → theirs[i]? = some x → x.event.target = .monitoring →
      (a.take q m).reconciler.isRepeated q x.stamp = true)
    (counters : ∀ key : FieldKey, key.begins "performance-" = true →
      Explains none (Written (mine ++ theirs.take (n / 2)) .monitoring key)
        ({ a.take q m with taken := n }.awaited theirs .monitoring key) ((a.take q m).battery.cell? .monitoring key))
    (own : ∀ key, key = TaskState.hitKey p ∨ key = TaskState.falseAlarmKey p →
      (a.take q m).battery.cell? .monitoring key = a.battery.cell? .monitoring key) :
    Tallies p q mine theirs verdicts { a.take q m with taken := n } where
  speaks := h.speaks.take q m n
  log := h.log
  monitors := monitors
  taken := upTo
  high := high
  known i x before there target := by
    by_cases already : 2 * i < a.taken
    · exact (a.reconciler.onward_onRemoteMessage a.battery q m).2.2 _ (h.known i x already there target)
    · exact known i x already before there target
  counters := counters
  hits := (TaskState.int_congr (own _ (Or.inl rfl))).trans h.hits
  falseAlarms := (TaskState.int_congr (own _ (Or.inr rfl))).trans h.falseAlarms

/-- What looking at an input of the other side does: what the input writes here it has written there. -/
theorem take_input (mem : x ∈ theirs) :
    (a.take q (.forward x.event x.stamp)).battery.Monitors (a.take q (.forward x.event x.stamp)).reconciler.clock ∧
      (∀ top, (a.take q (.forward x.event x.stamp)).reconciler.remoteHigh.get? q = some top →
        a.reconciler.remoteHigh.get? q = some top ∨ x.stamp = top) ∧
      ∀ key, (a.take q (.forward x.event x.stamp)).battery.cell? .monitoring key = a.battery.cell? .monitoring key ∨
        a.reconciler.isRepeated q x.stamp = false ∧ ∃ c d,
          (a.take q (.forward x.event x.stamp)).battery.cell? .monitoring key =
              writeCell (a.battery.cell? .monitoring key) c ∧
            x.writeAt? .monitoring key = some d ∧ c.stamp = d.stamp ∧ c.value.Rerun d.value := by
  have later := (a.reconciler.onward_onRemoteMessage a.battery q (.forward x.event x.stamp)).2.1
  rcases a.reconciler.onForward_cases a.battery q x.event x.stamp with
    ⟨clock, high, battery⟩ | ⟨fresh, clock, high, battery⟩
  · have unread : (a.take q (.forward x.event x.stamp)).battery = a.battery := battery
    refine ⟨h.monitors.same later (congrArg (·.store.read .monitoring) unread), fun top found => Or.inl ?_,
      fun key => Or.inl (congrArg (·.cell? .monitoring key) unread)⟩
    exact high ▸ found
  · have high' : ∀ top, (a.take q (.forward x.event x.stamp)).reconciler.remoteHigh.get? q = some top →
        a.reconciler.remoteHigh.get? q = some top ∨ x.stamp = top := by
      intro top found
      have inserted : (a.reconciler.remoteHigh.insert q x.stamp).get? q = some top := high ▸ found
      rw [OrderedMap.get?_insert, if_pos rfl] at inserted
      exact Or.inr (Option.some.inj inserted)
    by_cases target : x.event.target = .monitoring
    · have genuine := log.genuine x mem target
      obtain ⟨g, payload, installed⟩ := log.installed x mem target
      rw [a.battery.applyInput_eq genuine.unmatched, target] at battery
      have writes := (a.battery.store.read .monitoring).inputWrites x.event.payload x.stamp
      generalize (a.battery.store.read .monitoring).inputChanges x.event.payload x.stamp = changes at battery writes
      refine ⟨?_, high', fun key => ?_⟩
      · show (a.reconciler.onRemoteMessage _ _ _).2.1.Monitors (a.reconciler.onRemoteMessage _ _ _).1.clock
        obtain ⟨later, seen⟩ := a.reconciler.clock.moment_observe x.stamp
        rw [battery, clock]
        exact h.monitors.apply (payload ▸ writes) genuine.writer later (fun _ => seen) (fun _ => installed) _
      · have cells := a.battery.cell?_apply_of_apart (m := ⟨.monitoring, .remoteInput q, changes⟩) writes.apart
          .monitoring key
        rw [← battery, Mutation.writeAt?, if_pos rfl] at cells
        cases made : writeAt? changes key with
        | none =>
          rw [made] at cells
          exact Or.inl cells
        | some c =>
          obtain ⟨d, found, stamps, rerun⟩ := writes.exists_rerun genuine.writes genuine.wrote made
          rw [made] at cells
          exact Or.inr ⟨fresh, c, d, cells, (if_pos target).trans found, stamps, rerun⟩
    · have read : (a.take q (.forward x.event x.stamp)).battery.store.read .monitoring =
          a.battery.store.read .monitoring := by
        show (a.reconciler.onRemoteMessage _ _ _).2.1.store.read .monitoring = _
        rw [battery]
        exact a.battery.read_applyInput_of_ne target _ _
      exact ⟨h.monitors.same later read, high', fun key => Or.inl (congrArg (TaskState.cell? · key) read)⟩

/-- What a delta of the other side does. -/
theorem take_delta (shared : (a.battery.store.read .monitoring).isShared = true) (mem : x ∈ theirs) :
    (a.take q (.delta x.event.target x.changes)).battery.Monitors
        (a.take q (.delta x.event.target x.changes)).reconciler.clock ∧
      (a.take q (.delta x.event.target x.changes)).reconciler.remoteHigh = a.reconciler.remoteHigh ∧
      ∀ key, (a.take q (.delta x.event.target x.changes)).battery.cell? .monitoring key =
        (x.writeAt? .monitoring key).elim (a.battery.cell? .monitoring key)
          (writeCell (a.battery.cell? .monitoring key)) := by
  have later := (a.reconciler.onward_onRemoteMessage a.battery q (.delta x.event.target x.changes)).2.1
  by_cases target : x.event.target = .monitoring
  · have genuine := log.genuine x mem target
    obtain ⟨g, payload, installed⟩ := log.installed x mem target
    obtain ⟨clock, high, battery⟩ :=
      Reconciler.onDelta_spec (r := a.reconciler) (t := x.event.target) q x.changes (target ▸ shared)
    rw [clock] at later
    refine ⟨?_, high, fun key => ?_⟩
    · show (a.reconciler.onRemoteMessage _ _ _).2.1.Monitors (a.reconciler.onRemoteMessage _ _ _).1.clock
      rw [battery, clock, target]
      refine h.monitors.apply (payload ▸ genuine.writes) genuine.writer later (fun wrote => ?_) (fun _ => installed) _
      obtain ⟨c, made⟩ := List.exists_mem_of_ne_nil _ wrote
      exact genuine.writes.stamp_eq made ▸ (StampClock.foldl_observe x.changes a.reconciler.clock).2.2 c made
    · show (a.reconciler.onRemoteMessage _ _ _).2.1.cell? .monitoring key = _
      rw [battery]
      exact a.battery.cell?_apply_of_apart genuine.writes.apart .monitoring key
  · obtain ⟨high, outcome⟩ := a.reconciler.onDelta_cases a.battery q x.event.target x.changes
    have read : (a.take q (.delta x.event.target x.changes)).battery.store.read .monitoring =
        a.battery.store.read .monitoring := by
      rcases outcome with ⟨-, -, battery⟩ | ⟨-, -, battery⟩
      · exact congrArg (·.store.read .monitoring) battery
      · refine (congrArg (·.store.read .monitoring) battery).trans ?_
        show (a.battery.store.apply _).1.read .monitoring = _
        rw [Store.read_apply, if_neg target]
    refine ⟨h.monitors.same later read, high, fun key => ?_⟩
    rw [Exchange.writeAt?, if_neg target]
    exact congrArg (TaskState.cell? · key) read

section

variable (differ : p ≠ q)

include differ

/-- An input comes next. -/
theorem takeInput (shared : (a.battery.store.read .monitoring).isShared = true) (even : a.taken % 2 = 0)
    (next : theirs[a.taken / 2]? = some x) : Tallies p q mine theirs verdicts
      { a.take q (.forward x.event x.stamp) with taken := a.taken + 1 } := by
  have mem := List.mem_of_getElem? next
  have bound := (List.getElem?_eq_some_iff.mp next).1
  obtain ⟨monitors, high, cells⟩ := h.take_input log mem
  refine h.takes (by omega) monitors (fun top found => ?_) (fun i y later before there target => ?_)
    (fun key counter => ?_) fun key own => ?_
  · rcases high top found with old | rfl
    · obtain ⟨i, y, before, there⟩ := h.high top old
      exact ⟨i, y, by omega, there⟩
    · exact ⟨a.taken / 2, x, by omega, next, rfl⟩
  · obtain rfl : i = a.taken / 2 := by omega
    obtain rfl : x = y := Option.some.inj (next.symm.trans there)
    exact Reconciler.isRepeated_onForward (log.genuine x mem target).origin (log.writer x mem) (target ▸ shared)
  · refine explains_input (b := { a.take q _ with taken := a.taken + 1 }) even next rfl nofun
      (fun c => h.log.stamp_ne log differ next) (fun d made => ?_) ((cells key).imp_right And.right)
      (h.counters key counter)
    exact (log.genuine x mem (Exchange.mem_of_writeAt? made).1).stamp_eq made
  · rcases cells key with same | ⟨-, c, d, -, made, -⟩
    · exact same
    · rw [log.writeAt?_eq_none differ mem own] at made
      cases made

/-- A delta comes next. -/
theorem takeDelta (shared : (a.battery.store.read .monitoring).isShared = true) (odd : a.taken % 2 = 1)
    (next : theirs[a.taken / 2]? = some x) : Tallies p q mine theirs verdicts
      { a.take q (.delta x.event.target x.changes) with taken := a.taken + 1 } := by
  have mem := List.mem_of_getElem? next
  have bound := (List.getElem?_eq_some_iff.mp next).1
  obtain ⟨monitors, high, cells⟩ := h.take_delta log shared mem
  refine h.takes (by omega) monitors (fun top found => ?_) (fun i y later before => ?_) (fun key counter => ?_)
    fun key own => ?_
  · obtain ⟨i, y, before, there⟩ := h.high top (high ▸ found)
    exact ⟨i, y, by omega, there⟩
  · exact absurd before (by omega)
  · rw [cells]
    refine explains_delta (b := { a.take q _ with taken := a.taken + 1 }) odd next rfl nofun
      (fun c => h.log.stamp_ne log differ next) (fun d made => ?_) (h.counters key counter)
    exact (log.genuine x mem (Exchange.mem_of_writeAt? made).1).stamp_eq made
  · rw [cells, log.writeAt?_eq_none differ mem own]
    rfl

omit differ in
/-- An input that has been taken before comes again. -/
theorem takeInputAgain {i : Nat} (before : 2 * i < a.taken) (found : theirs[i]? = some x) :
    Tallies p q mine theirs verdicts (a.take q (.forward x.event x.stamp)) := by
  have mem := List.mem_of_getElem? found
  obtain ⟨monitors, high, cells⟩ := h.take_input log mem
  have still : ∀ key, (a.take q (.forward x.event x.stamp)).battery.cell? .monitoring key =
      a.battery.cell? .monitoring key := by
    intro key
    rcases cells key with same | ⟨fresh, c, d, -, made, -⟩
    · exact same
    · rw [h.known i x before found (Exchange.mem_of_writeAt? made).1] at fresh
      cases fresh
  refine h.takes h.taken monitors (fun top shown => ?_) (fun i y later before => absurd before later)
    (fun key counter => ?_) fun key _ => still key
  · rcases high top shown with old | rfl
    · exact h.high top old
    · exact ⟨i, x, before, found, rfl⟩
  · rw [still]
    exact h.counters key counter

/-- A delta that has been taken before comes again. -/
theorem takeDeltaAgain (shared : (a.battery.store.read .monitoring).isShared = true) {i : Nat}
    (before : 2 * i + 1 < a.taken) (found : theirs[i]? = some x) :
    Tallies p q mine theirs verdicts (a.take q (.delta x.event.target x.changes)) := by
  have mem := List.mem_of_getElem? found
  obtain ⟨monitors, high, cells⟩ := h.take_delta log shared mem
  refine h.takes h.taken monitors (fun top shown => h.high top (high ▸ shown))
    (fun i y later before => absurd before later) (fun key counter => ?_) fun key own => ?_
  · rw [cells]
    refine explains_again (List.mem_of_getElem? ((List.getElem?_take_of_lt (by omega)).trans found)) (fun c d => ?_)
      (h.counters key counter)
    exact h.log.eq_of_written (log.take _) differ
  · rw [cells, log.writeAt?_eq_none differ mem own]
    rfl

/-- The next message of the other side. -/
theorem takeNext (shared : (a.battery.store.read .monitoring).isShared = true) :
    Tallies p q mine theirs verdicts (a.takeNext q (theirs.flatMap Exchange.messages)) :=
  takeNext_cases h (fun _ even next => h.takeInput log differ shared even next)
    fun _ odd next => h.takeDelta log differ shared odd next

/-- A message of the other side that has been taken before. -/
theorem takeAgain (shared : (a.battery.store.read .monitoring).isShared = true) (n : Nat) :
    Tallies p q mine theirs verdicts (a.takeAgain q (theirs.flatMap Exchange.messages) n) :=
  takeAgain_cases h (fun _ _ before found => h.takeInputAgain log before found)
    (fun _ _ before found => h.takeDeltaAgain log differ shared before found) n

end

end

/-- An input of the participant. -/
theorem input (h : Tallies p q mine theirs verdicts a) (room : a.reconciler.clock.HasRoom) (captured now : SessionTime)
    (payload : InputPayload)
    (network : ((a.input (.captured p captured payload) now).battery.store.read .monitoring).text "network" ≠ "no") :
    ∃ more, Tallies p q (mine ++ more) theirs (verdicts ++ (a.verdict? payload).toList)
      (a.input (.captured p captured payload) now) := by
  cases payload with
  | monitoringAck g => exact ⟨_, h.inputAcknowledge rfl rfl room rfl network⟩
  | _ =>
    simp only [verdict?, Option.toList_none, List.append_nil]
    exact h.inputOther room (fun same => by cases same) now

end Tallies

end Side

/-! ## Runs -/

namespace Setting

variable {w : Setting} {x : Ends Side}

/-- What a move counts as for the participant of a side. -/
def verdict? (r : Role) (x : Ends Side) : SideMove → Option Bool
  | .input s _ _ payload => if s = r then (x.get r).verdict? payload else none
  | _ => none

/-- The hits and false alarms of the participant of a side in a run, in order. -/
def verdicts (w : Setting) (r : Role) (x : Ends Side) : List SideMove → List Bool
  | [] => []
  | m :: rest => (verdict? r x m).toList ++ w.verdicts r (w.perform x m) rest

/-- What holds of the two sides at any time, when they have told `logs` and their participants have been counted as in
`verdicts`. -/
def Tallies (w : Setting) (logs : Ends (List Exchange)) (verdicts : Role → List Bool) (x : Ends Side) : Prop :=
  ∀ r, Side.Tallies (w.participants.get r) (w.participants.get r.other) (logs.get r) (logs.get r.other) (verdicts r)
    (x.get r)

theorem tallies_start (w : Setting) : w.Tallies ⟨[], []⟩ (fun _ => []) w.start := by
  intro r
  cases r with
  | host => exact Side.tallies_new w.capacities.host w.pair _ _
  | guest => exact Side.tallies_new w.capacities.guest w.pair _ _

/-- Every message has been taken. -/
def IsDelivered (x : Ends Side) : Prop := ∀ r, (x.get r).taken = (x.get r.other).sent.length

namespace Tallies

variable {logs : Ends (List Exchange)} {verdicts : Role → List Bool}

/-- A move of one side. -/
theorem set (h : w.Tallies logs verdicts x) {r : Role} {a : Side} (more : List Exchange)
    {verdicts' : Role → List Bool} (other : verdicts' r.other = verdicts r.other)
    (moved : Side.Tallies (w.participants.get r) (w.participants.get r.other) (logs.get r ++ more) (logs.get r.other)
      (verdicts' r) a) :
    w.Tallies (logs.set r (logs.get r ++ more)) verdicts' (x.set r a) := by
  intro s
  cases r <;> cases s
  · exact moved
  · exact other ▸ (h .guest).told more
  · exact other ▸ (h .host).told more
  · exact moved

/-- A move of one side that tells the other one nothing and counts as nothing. -/
theorem silent (h : w.Tallies logs verdicts x) {r : Role} {a : Side}
    (moved : Side.Tallies (w.participants.get r) (w.participants.get r.other) (logs.get r) (logs.get r.other)
      (verdicts r) a) {m : SideMove} (uncounted : ∀ s, verdict? s x m = none) :
    ∃ logs', w.Tallies logs' (fun s => verdicts s ++ (verdict? s x m).toList) (x.set r a) := by
  simp only [uncounted, Option.toList_none, List.append_nil]
  refine ⟨_, h.set [] rfl ?_⟩
  rw [List.append_nil]
  exact moved

/-- Every move keeps what holds of the two sides, and counts for the participant as it is judged. -/
theorem perform (h : w.Tallies logs verdicts x) (distinct : w.participants.host ≠ w.participants.guest)
    (known : ∀ c ∈ w.script, c.SetsKnown) (room : ∀ r, (x.get r).reconciler.clock.HasRoom) (m : SideMove)
    (network : ∀ r, ((x.get r).battery.store.read .monitoring).text "network" ≠ "no")
    (network' : ∀ r, (((w.perform x m).get r).battery.store.read .monitoring).text "network" ≠ "no") :
    ∃ logs', w.Tallies logs' (fun s => verdicts s ++ (verdict? s x m).toList) (w.perform x m) := by
  have differ := participants_ne distinct
  have shared := fun r => TaskState.isShared_of_network (h r).monitors.task (network r)
  cases m with
  | play r => exact h.silent ((h r).playNext known) fun _ => rfl
  | input r captured now payload =>
    have stays := network' r
    rw [Setting.perform, Ends.get_set_self] at stays
    obtain ⟨more, moved⟩ := (h r).input (room r) captured now payload stays
    refine ⟨_, h.set more ?_ ?_⟩
    · have elsewhere : r ≠ r.other := by cases r <;> nofun
      rw [verdict?, if_neg elsewhere]
      exact List.append_nil _
    · rw [verdict?, if_pos rfl]
      exact moved
  | deliver r =>
    refine h.silent ?_ fun _ => rfl
    rw [(h r.other).speaks.sent]
    exact (h r).takeNext (h r.other).log (differ r) (shared r)
  | redeliver r n =>
    refine h.silent ?_ fun _ => rfl
    rw [(h r.other).speaks.sent]
    exact (h r).takeAgain (h r.other).log (differ r) (shared r) n

/-- A run. -/
theorem run (h : w.Tallies logs verdicts x) (distinct : w.participants.host ≠ w.participants.guest)
    (known : ∀ c ∈ w.script, c.SetsKnown) {moves : List SideMove}
    (room : ∀ n r, (((moves.take n).foldl w.perform x).get r).reconciler.clock.HasRoom)
    (network : ∀ n r,
      ((((moves.take n).foldl w.perform x).get r).battery.store.read .monitoring).text "network" ≠ "no") :
    ∃ logs', w.Tallies logs' (fun s => verdicts s ++ w.verdicts s x moves) (moves.foldl w.perform x) := by
  induction moves generalizing logs verdicts x with
  | nil =>
    refine ⟨logs, ?_⟩
    simp only [Setting.verdicts, List.append_nil]
    exact h
  | cons m rest ih =>
    obtain ⟨logs', moved⟩ := h.perform distinct known (room 0) m (network 0) (network 1)
    obtain ⟨logs'', after⟩ := ih moved (fun n => room (n + 1)) fun n => network (n + 1)
    refine ⟨logs'', ?_⟩
    simp only [List.append_assoc] at after
    exact after

/-- When everything has been taken, a counter shows the newest of all that has been told. -/
theorem newest (h : w.Tallies logs verdicts x) (delivered : IsDelivered x) (r : Role) {key : FieldKey}
    (counter : key.begins "performance-" = true) :
    Newest none (Written (logs.get r ++ logs.get r.other) .monitoring key)
      ((x.get r).battery.cell? .monitoring key) := by
  have taken := delivered r
  rw [(h r.other).speaks.sent, Exchange.length_messages] at taken
  have cells := (h r).counters key counter
  rw [Side.awaited_even (by omega), taken, Nat.mul_div_cancel_left _ (by decide), List.take_length] at cells
  exact cells.newest

/-- Then a counter shows the same on both sides. -/
theorem int_other (h : w.Tallies logs verdicts x) (distinct : w.participants.host ≠ w.participants.guest)
    (delivered : IsDelivered x) (r : Role) {key : FieldKey} (counter : key.begins "performance-" = true) :
    ((x.get r.other).battery.store.read .monitoring).int key = ((x.get r).battery.store.read .monitoring).int key := by
  have there := (h.newest delivered r.other counter).congr fun c => by
    rw [Role.other_other, written_append, or_comm, ← written_append]
  have alike := (h.newest delivered r counter).agree there fun c d =>
    (h r).log.eq_of_written (h r.other).log (participants_ne distinct r)
  unfold TaskState.int TaskState.get?
  unfold Battery.cell? at alike
  generalize ((x.get r).battery.store.read .monitoring).cell? key = here at alike ⊢
  generalize ((x.get r.other).battery.store.read .monitoring).cell? key = there at alike ⊢
  cases alike with
  | none => rfl
  | some alike => exact congrArg (Option.getD · 0) alike.2.asInt?_eq.symm

/-- Only the two participants have counters. -/
theorem counters_of_two (h : w.Tallies logs verdicts x) (delivered : IsDelivered x) (s : Role) {key : FieldKey}
    {cell : Cell} (counter : key.begins "performance-" = true)
    (found : ((x.get s).battery.store.read .monitoring).cell? key = some cell) :
    (key = TaskState.hitKey w.participants.host ∨ key = TaskState.falseAlarmKey w.participants.host) ∨
      key = TaskState.hitKey w.participants.guest ∨ key = TaskState.falseAlarmKey w.participants.guest := by
  have newest := h.newest delivered s counter
  rw [show (x.get s).battery.cell? .monitoring key = some cell from found] at newest
  cases newest with
  | input made =>
    rcases written_append.mp made with own | other
    · have key := (h s).log.counter_eq own counter
      cases s with
      | host => exact Or.inl key
      | guest => exact Or.inr key
    · have key := (h s.other).log.counter_eq other counter
      cases s with
      | host => exact Or.inr key
      | guest => exact Or.inl key

end Tallies

/-- What a run must be like for all acknowledgements to count: there are two participants, every parameter of the
script is known, the monitoring task is never in the local network mode, and no clock runs out of counters. -/
structure Watches (w : Setting) (moves : List SideMove) : Prop where
  distinct : w.participants.host ≠ w.participants.guest
  known : ∀ c ∈ w.script, c.SetsKnown
  network : ∀ n r, (((w.after (moves.take n)).get r).battery.store.read .monitoring).text "network" ≠ "no"
  room : ∀ n r, ((w.after (moves.take n)).get r).reconciler.clock.HasRoom

/-- **No acknowledgement is lost.**  When every message has been taken, both sides show for each participant as many
hits and false alarms as the side of the participant has counted, so that together they are all the acknowledgements of
the participant, of gauges that are there, that this side has handled while its monitoring task ran and was not paused.
The totals are the sums over the two participants. -/
theorem acknowledgements_counted {moves : List SideMove} (watches : w.Watches moves)
    (delivered : IsDelivered (w.after moves)) (s : Role) :
    let monitoring := ((w.after moves).get s).battery.store.read .monitoring
    (∀ r, monitoring.int (TaskState.hitKey (w.participants.get r)) =
          Int64.ofNat ((w.verdicts r w.start moves).count true) ∧
        monitoring.int (TaskState.falseAlarmKey (w.participants.get r)) =
          Int64.ofNat ((w.verdicts r w.start moves).count false) ∧
        monitoring.int (TaskState.hitKey (w.participants.get r)) +
            monitoring.int (TaskState.falseAlarmKey (w.participants.get r)) =
          Int64.ofNat (w.verdicts r w.start moves).length) ∧
      monitoring.monitoringTotals =
        (monitoring.int (TaskState.hitKey w.participants.host) + monitoring.int (TaskState.hitKey w.participants.guest),
          monitoring.int (TaskState.falseAlarmKey w.participants.host) +
            monitoring.int (TaskState.falseAlarmKey w.participants.guest)) := by
  obtain ⟨logs, h⟩ := (tallies_start w).run watches.distinct watches.known watches.room watches.network
  intro monitoring
  -- What a participant is counted as on the own side the other side shows as well.
  have shown : ∀ r key, FieldKey.begins key "performance-" = true →
      monitoring.int key = (((w.after moves).get r).battery.store.read .monitoring).int key := by
    intro r key counter
    by_cases own : s = r
    · subst own
      rfl
    · have other : s = r.other := by cases s <;> cases r <;> first | rfl | exact absurd rfl own
      subst other
      exact h.int_other watches.distinct delivered r counter
  refine ⟨fun r => ?_, TaskState.monitoringTotals_eq watches.distinct fun key cell =>
    h.counters_of_two delivered s⟩
  have hits := (shown r _ (begins_hitKey _)).trans (h r).hits
  have falseAlarms := (shown r _ (begins_falseAlarmKey _)).trans (h r).falseAlarms
  simp only [List.nil_append] at hits falseAlarms
  refine ⟨hits, falseAlarms, ?_⟩
  rw [hits, falseAlarms, ← Int64.ofNat_add, List.count_true_add_count_false]

/-- Two participants, and a script that starts the monitoring task and lets a light fail. -/
def lights : Setting where
  participants := ⟨⟨1⟩, ⟨2⟩⟩
  capacities := ⟨0, 0⟩
  script := [⟨0, 0, .act (.task .monitoring) .start, 1, 0⟩,
    ⟨1, 0, .set (.task .monitoring) "lights-1-failure" "true", 2, 1⟩]

/-- Both participants acknowledge the light at once, and the guest goes on with a scale that does not fail.  Then all
messages are taken, and a delta once more. -/
def crossedRun : List SideMove :=
  [.play .host, .play .host, .play .guest, .play .guest, .input .host ⟨2000⟩ ⟨2000⟩ (.monitoringAck (.light 1)),
    .input .guest ⟨2000⟩ ⟨2000⟩ (.monitoringAck (.light 1)), .input .guest ⟨2100⟩ ⟨2100⟩ (.monitoringAck (.scale 3)),
    .deliver .guest, .deliver .guest, .deliver .host, .deliver .host, .deliver .host, .deliver .host,
    .redeliver .host 1]

-- One evaluation of the run for all that is needed of it.
theorem crossedRun_spec :
    (∀ n ≤ crossedRun.length,
        ((((lights.after (crossedRun.take n)).get .host).battery.store.read .monitoring).text "network" ≠ "no" ∧
          ((lights.after (crossedRun.take n)).get .host).reconciler.clock.HasRoom) ∧
        (((lights.after (crossedRun.take n)).get .guest).battery.store.read .monitoring).text "network" ≠ "no" ∧
          ((lights.after (crossedRun.take n)).get .guest).reconciler.clock.HasRoom) ∧
      (((lights.after crossedRun).get .host).taken = ((lights.after crossedRun).get .guest).sent.length ∧
        ((lights.after crossedRun).get .guest).taken = ((lights.after crossedRun).get .host).sent.length) ∧
      lights.verdicts .host lights.start crossedRun = [true] ∧
      lights.verdicts .guest lights.start crossedRun = [true, false] := by
  decide +kernel

theorem watches_crossedRun : lights.Watches crossedRun := by
  have each : ∀ n r, (((lights.after (crossedRun.take n)).get r).battery.store.read .monitoring).text "network" ≠ "no" ∧
      ((lights.after (crossedRun.take n)).get r).reconciler.clock.HasRoom := by
    refine forall_take (P := fun moves => ∀ r, (((lights.after moves).get r).battery.store.read .monitoring).text
      "network" ≠ "no" ∧ ((lights.after moves).get r).reconciler.clock.HasRoom) fun n upTo => ?_
    obtain ⟨host, guest⟩ := crossedRun_spec.1 n upTo
    exact Role.forall_of .host host guest
  refine ⟨by decide, fun c mem => ?_, fun n r => (each n r).1, fun n r => (each n r).2⟩
  have known : TaskId.isKnownParameter .monitoring "lights-1-failure" = true := by decide +kernel
  simp only [lights, List.mem_cons, List.not_mem_nil, or_false] at mem
  rcases mem with rfl | rfl
  · exact nofun
  · intro t key raw same
    cases same
    exact known

theorem isDelivered_crossedRun : IsDelivered (lights.after crossedRun) := by
  obtain ⟨host, guest⟩ := crossedRun_spec.2.1
  exact Role.forall_of .host host guest

/-- On both sides the host has one hit, and the guest a hit and a false alarm. -/
theorem acknowledgements_counted_crossedRun : lights.Watches crossedRun ∧ IsDelivered (lights.after crossedRun) ∧
    ∀ s, (((lights.after crossedRun).get s).battery.store.read .monitoring).int (TaskState.hitKey ⟨1⟩) = 1 ∧
      (((lights.after crossedRun).get s).battery.store.read .monitoring).int (TaskState.hitKey ⟨2⟩) = 1 ∧
      (((lights.after crossedRun).get s).battery.store.read .monitoring).int (TaskState.falseAlarmKey ⟨2⟩) = 1 := by
  obtain ⟨-, -, host, guest⟩ := crossedRun_spec
  refine ⟨watches_crossedRun, isDelivered_crossedRun, fun s => ?_⟩
  have counted := (acknowledgements_counted watches_crossedRun isDelivered_crossedRun s).1
  have first := counted .host
  have second := counted .guest
  rw [host] at first
  rw [guest] at second
  exact ⟨first.1, second.1, second.2.1⟩

end Setting

end Tandem
