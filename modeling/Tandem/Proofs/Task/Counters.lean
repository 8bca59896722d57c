import Tandem.Proofs.Scenario.Scripted
/-!
# Counters

The monitoring task counts the acknowledgements of each participant in two fields, hits and false alarms.  No session
starts with these fields.  They come into being with the first acknowledgement of a gauge that is there, and nothing
else writes them: no command of a script whose parameters are known (`Battery.scriptedAt_counter`), and no
acknowledgement of the other participant (`InputWrites.counter_eq`).

The totals of the task are sums over all its fields.  As long as two participants have counters they are the sums over
these two (`TaskState.monitoringTotals_eq`).
-/

namespace Tandem

/-! ## Gauges -/

namespace Gauge

/-- The address of the failure of a gauge. -/
def failureKey (g : Gauge) : FieldKey := s!"{g.address}-failure"

/-- Whether the monitoring task has a gauge. -/
def isInstalled (g : Gauge) : Bool := (TaskId.defaults .monitoring).any (fun d => d.1 = g.failureKey)

/-- There are two lights and four scales. -/
example : [0, 1, 2, 3].map (fun n => (light n).isInstalled) = [false, true, true, false] ∧
    [0, 1, 4, 5].map (fun n => (scale n).isInstalled) = [false, true, true, false] := by decide +kernel

theorem exists_inputType?_failureKey (g : Gauge) : ∃ v, inputType? .monitoring g.failureKey = some v := by
  cases g with
  | light n => exact ⟨_, inputType?_lightFailure n⟩
  | scale n => exact ⟨_, inputType?_scaleFailure n⟩

theorem failureKey_ne_lightOn (g : Gauge) (n : UInt8) : g.failureKey ≠ s!"{(Gauge.light n).address}-on" := by
  intro same
  have ending := congrArg (FieldKey.ends · "-failure") same
  cases g <;> simp [FieldKey.ends, failureKey, Gauge.address, toString_string, List.isPrefixOf] at ending

theorem begins_failureKey (g : Gauge) : g.failureKey.begins "performance-" = false := by
  cases g <;> simp [FieldKey.begins, failureKey, Gauge.address, toString_string, List.isPrefixOf]

end Gauge

/-! ## The fields of a counter -/

section

open TaskState FieldKey

variable {p q : ParticipantId}

theorem begins_hitKey (p : ParticipantId) : (hitKey p).begins "performance-" = true := by
  unfold hitKey
  simp [begins, toString_string]

theorem begins_falseAlarmKey (p : ParticipantId) : (falseAlarmKey p).begins "performance-" = true := by
  unfold falseAlarmKey
  simp [begins, toString_string]

theorem begins_lightOn (n : UInt8) : FieldKey.begins s!"{(Gauge.light n).address}-on" "performance-" = false := by
  simp [begins, Gauge.address, toString_string, List.isPrefixOf]

theorem hitKey_ne_falseAlarmKey (p q : ParticipantId) : hitKey p ≠ falseAlarmKey q := by
  intro same
  have letters := congrArg String.toList same
  unfold hitKey falseAlarmKey at letters
  simp [toString_string] at letters

/-- A participant is known by the digits of the number. -/
theorem ParticipantId.eq_of_toDigits (same : Nat.toDigits 10 p.id.toNat = Nat.toDigits 10 q.id.toNat) : p = q := by
  have number := congrArg (Nat.ofDigitChars 10 · 0) same
  simp only [Nat.ofDigitChars_ten_toDigits] at number
  exact congrArg ParticipantId.mk (UInt64.toNat_inj.mp number)

/-- Each participant has counters of their own. -/
theorem hitKey_inj (same : hitKey p = hitKey q) : p = q := by
  have letters := congrArg String.toList same
  unfold hitKey at letters
  exact ParticipantId.eq_of_toDigits (by simpa [toString_string] using letters)

theorem falseAlarmKey_inj (same : falseAlarmKey p = falseAlarmKey q) : p = q := by
  have letters := congrArg String.toList same
  unfold falseAlarmKey at letters
  exact ParticipantId.eq_of_toDigits (by simpa [toString_string] using letters)

end

/-! ## What acknowledgements write -/

section

open TaskState

variable {stamp : Stamp} {g : Gauge} {p : ParticipantId} {changes : List FieldChange} {c : FieldChange}

/-- An acknowledgement writes the counters of its participant, and fields of its gauge. -/
theorem InputWrites.acknowledge_cases (h : InputWrites stamp (.monitoringAck g) changes)
    (writer : stamp.writer = .participant p) (mem : c ∈ changes) :
    (c.key = hitKey p ∨ c.key = falseAlarmKey p) ∨ c.key = g.failureKey ∨
      ∃ n, c.key = s!"{(Gauge.light n).address}-on" := by
  cases h with
  | nothing => exact absurd mem List.not_mem_nil
  | light n writer' =>
    cases writer.symm.trans writer'
    simp only [List.mem_cons, List.not_mem_nil, or_false] at mem
    rcases mem with rfl | rfl | rfl | rfl
    · exact Or.inl (Or.inl rfl)
    · exact Or.inl (Or.inr rfl)
    · exact Or.inr (Or.inl rfl)
    · exact Or.inr (Or.inr ⟨n, rfl⟩)
  | scale n writer' =>
    cases writer.symm.trans writer'
    simp only [List.mem_cons, List.not_mem_nil, or_false] at mem
    rcases mem with rfl | rfl | rfl
    · exact Or.inl (Or.inl rfl)
    · exact Or.inl (Or.inr rfl)
    · exact Or.inr (Or.inl rfl)

/-- A counter that an acknowledgement writes is one of its participant. -/
theorem InputWrites.counter_eq (h : InputWrites stamp (.monitoringAck g) changes)
    (writer : stamp.writer = .participant p) (mem : c ∈ changes) (counter : c.key.begins "performance-" = true) :
    c.key = hitKey p ∨ c.key = falseAlarmKey p := by
  rcases h.acknowledge_cases writer mem with own | failure | ⟨n, on⟩
  · exact own
  · rw [failure, g.begins_failureKey] at counter
    cases counter
  · rw [on, begins_lightOn] at counter
    cases counter

/-- A failure that an acknowledgement writes is that of its gauge. -/
theorem InputWrites.failureKey_eq (h : InputWrites stamp (.monitoringAck g) changes)
    (writer : stamp.writer = .participant p) (mem : c ∈ changes) {g' : Gauge} (failure : c.key = g'.failureKey) :
    g'.failureKey = g.failureKey := by
  have other : c.key.begins "performance-" = false := failure ▸ g'.begins_failureKey
  rcases h.acknowledge_cases writer mem with (own | own) | same | ⟨n, on⟩
  · rw [own, begins_hitKey] at other
    cases other
  · rw [own, begins_falseAlarmKey] at other
    cases other
  · exact failure.symm.trans same
  · exact absurd (failure.symm.trans on) (g'.failureKey_ne_lightOn n)

namespace TaskState

variable {s s' : TaskState}

theorem int_of_cell? {key : FieldKey} {v : Int64} (found : s.cell? key = some ⟨.int v, stamp⟩) : s.int key = v := by
  rw [int, get?, found]
  rfl

theorem int_of_absent {key : FieldKey} (absent : s.cell? key = none) : s.int key = 0 := by
  rw [int, get?, absent]
  rfl

theorem int_congr {key : FieldKey} (same : s.cell? key = s'.cell? key) : s.int key = s'.int key := by
  rw [int, int, get?, get?, same]

/-- An acknowledgement of a gauge that is not there writes nothing, nor does one that the task does not take. -/
theorem inputChanges_acknowledge_eq_nil (h : ¬ ((s.cell? g.failureKey).isSome = true ∧ s.acceptsInput = true)) :
    s.inputChanges (.monitoringAck g) stamp = [] := by
  unfold inputChanges
  cases takes : s.acceptsInput with
  | false => rfl
  | true =>
    have absent : s.cell? g.failureKey = none := by
      rw [takes] at h
      simpa using h
    have none : s.get? s!"{g.address}-failure" = none := congrArg (Option.map _) absent
    show s.acknowledgeChanges g stamp = []
    rw [acknowledgeChanges, none]

/-- Otherwise it adds one to a counter of its participant. -/
theorem inputChanges_acknowledge (present : (s.cell? g.failureKey).isSome = true) (takes : s.acceptsInput = true)
    (writer : stamp.writer = .participant p) : s.inputChanges (.monitoringAck g) stamp =
      ⟨hitKey p, .int (s.int (hitKey p) + if s.isFailing g then 1 else 0), stamp⟩
        :: ⟨falseAlarmKey p, .int (s.int (falseAlarmKey p) + if s.isFailing g then 0 else 1), stamp⟩
        :: s.gaugeChanges g (s.isFailing g) stamp := by
  obtain ⟨cell, found⟩ := Option.isSome_iff_exists.mp present
  have some : s.get? s!"{g.address}-failure" = some cell.value := congrArg (Option.map _) found
  rw [inputChanges, takes]
  show s.acknowledgeChanges g stamp = _
  rw [acknowledgeChanges, some, writer]

end TaskState

end

/-! ## What the script writes -/

/-- No session starts with a counter. -/
theorem TaskId.begins_default : ∀ field ∈ defaults .monitoring, FieldKey.begins field.1 "performance-" = false := by
  decide +kernel

theorem TaskState.cell?_initial_counter {key : FieldKey} (counter : key.begins "performance-" = true) :
    (initial .monitoring).cell? key = none := by
  cases found : (initial .monitoring).cell? key with
  | none => rfl
  | some cell =>
    rw [TaskId.begins_default _ (mem_defaults_of_cell?_initial found).1] at counter
    cases counter

/-- Of two stretches of text with which an address starts one starts with the other. -/
theorem FieldKey.begins_nested {key : FieldKey} {s t : String} (first : key.begins s = true)
    (second : key.begins t = true) : (s.toList.isPrefixOf t.toList || t.toList.isPrefixOf s.toList) = true := by
  simp only [begins, List.isPrefixOf_iff_prefix, Bool.or_eq_true] at first second ⊢
  exact List.prefix_or_prefix_of_prefix first second

/-- The fields that inputs write are not those of actions. -/
theorem actionType?_of_inputType? {key : FieldKey} {v : FieldValue} (listed : inputType? .monitoring key = some v) :
    actionType? key = none := by
  have lead : key.begins "performance-" = true ∨ key.begins "lights-" = true ∨ key.begins "scales-" = true := by
    unfold inputType? at listed
    grind
  have none : ∀ word ∈ ["running", "visible", "paused", "round-status", "progresstimer-started", "objectcount",
      "round-number", "round-deadline"], inputType? .monitoring word = none := by
    decide +kernel
  have other : ∀ word ∈ ["running", "visible", "paused", "round-status", "progresstimer-started", "objectcount",
      "round-number", "round-deadline"], key ≠ word := by
    rintro word mem rfl
    rw [none key mem] at listed
    cases listed
  have unselected : key.begins "selection-" = false := by
    refine Bool.eq_false_iff.mpr fun selection => ?_
    rcases lead with lead | lead | lead <;> exact absurd (FieldKey.begins_nested lead selection) (by decide)
  simp only [List.mem_cons, List.not_mem_nil, or_false, forall_eq_or_imp, forall_eq] at other
  simp [actionType?, other, unselected]

/-- A command does not set a parameter that its task does not have. -/
def ScenarioCommand.SetsKnown (c : ScenarioCommand) : Prop :=
  ∀ t key raw, c.payload = .set (.task t) key raw → t.isKnownParameter key = true

namespace Battery

variable {b : Battery} {c : ScenarioCommand} {key : FieldKey}

/-- Of the fields that acknowledgements write, a command writes those that the session starts with, and lamps. -/
theorem mem_scriptedAt_monitoring (task : (b.store.read .monitoring).task = .monitoring)
    (known : c.SetsKnown) {v : FieldValue} (listed : inputType? .monitoring key = some v) {d : FieldChange}
    (mem : d ∈ b.scriptedAt c .monitoring key) :
    (∃ field ∈ TaskId.defaults .monitoring, field.1 = key) ∨ ∃ n, key = s!"{(Gauge.light n).address}-on" := by
  obtain ⟨target, made, rfl⟩ := mem_scriptedAt mem
  cases (scriptWrite target made).2 with
  | action listed' =>
    rw [actionType?_of_inputType? listed] at listed'
    cases listed'
  | @parameter t key raw command address =>
    have here : t = .monitoring := by
      rw [CommandPayload.task?, command] at target
      exact Option.some.inj target
    subst here
    rw [task] at address
    obtain ⟨field, mem, same⟩ := TaskId.exists_default_of_known (known _ key raw command)
    exact Or.inl ⟨field, mem, same.trans address.symm⟩
  | @lamp n _ _ address => exact Or.inr ⟨n, address⟩

/-- A command does not write counters. -/
theorem scriptedAt_counter (task : (b.store.read .monitoring).task = .monitoring)
    (known : c.SetsKnown) (counter : key.begins "performance-" = true) : b.scriptedAt c .monitoring key = [] := by
  have listed : inputType? .monitoring key = some (.int 0) := by simp [inputType?, counter]
  refine List.eq_nil_iff_forall_not_mem.mpr fun d mem => ?_
  rcases mem_scriptedAt_monitoring task known listed mem with ⟨field, start, rfl⟩ | ⟨n, rfl⟩
  · rw [TaskId.begins_default field start] at counter
    cases counter
  · rw [begins_lightOn] at counter
    cases counter

/-- A command does not write the failure of a gauge that is not there. -/
theorem isInstalled_of_scriptedAt (task : (b.store.read .monitoring).task = .monitoring)
    (known : c.SetsKnown) {g : Gauge} {d : FieldChange} (mem : d ∈ b.scriptedAt c .monitoring g.failureKey) :
    g.isInstalled = true := by
  obtain ⟨v, listed⟩ := g.exists_inputType?_failureKey
  rcases mem_scriptedAt_monitoring task known listed mem with ⟨field, start, same⟩ | ⟨n, same⟩
  · exact List.any_eq_true.mpr ⟨field, start, decide_eq_true same⟩
  · exact absurd same (g.failureKey_ne_lightOn n)

end Battery

/-! ## Totals -/

namespace TaskState

/-- The sum of the counted fields. -/
def tally (counted : FieldKey → Bool) : List (FieldKey × Cell) → Int64
  | [] => 0
  | e :: rest => (if counted e.1 then (e.2.value.asInt?).getD 0 else 0) + tally counted rest

/-- The fields that count as hits, and those that count as false alarms. -/
def isHit (key : FieldKey) : Bool := (Text.afterLeading? "performance-hit-" key).isSome
def isFalseAlarm (key : FieldKey) : Bool := !isHit key && (Text.afterLeading? "performance-fa-" key).isSome

theorem monitoringTotals_eq_tally (s : TaskState) :
    s.monitoringTotals = (tally isHit s.fields.entries, tally isFalseAlarm s.fields.entries) := by
  have sums : ∀ (l : List (FieldKey × Cell)) (x y : Int64), l.foldl (fun totals e =>
      let count := (e.2.value.asInt?).getD 0
      if (Text.afterLeading? "performance-hit-" e.1).isSome then (totals.1 + count, totals.2)
      else if (Text.afterLeading? "performance-fa-" e.1).isSome then (totals.1, totals.2 + count)
      else totals) (x, y) = (x + tally isHit l, y + tally isFalseAlarm l) := by
    intro l
    induction l with
    | nil => exact fun x y => Prod.ext (Int64.add_zero x).symm (Int64.add_zero y).symm
    | cons e rest ih =>
      intro x y
      rw [List.foldl_cons]
      cases hit : (Text.afterLeading? "performance-hit-" e.1).isSome <;>
        cases falseAlarm : (Text.afterLeading? "performance-fa-" e.1).isSome <;>
        simp [ih, tally, isHit, isFalseAlarm, hit, falseAlarm, Int64.add_assoc]
  rw [monitoringTotals, sums, Int64.zero_add, Int64.zero_add]

/-- Two kinds of fields of which no field is both add up. -/
theorem tally_split {counted first second : FieldKey → Bool} {l : List (FieldKey × Cell)}
    (split : ∀ e ∈ l, counted e.1 = (first e.1 || second e.1)) (apart : ∀ key, first key = true → second key = false) :
    tally counted l = tally first l + tally second l := by
  induction l with
  | nil => rfl
  | cons e rest ih =>
    have here := split e List.mem_cons_self
    have others := ih fun d mem => split d (List.mem_cons_of_mem e mem)
    have once := apart e.1
    simp only [tally, here, others]
    grind

/-- The sum of a single field is what the field shows. -/
theorem tally_eq (fields : OrderedMap FieldKey Cell) (key : FieldKey) :
    tally (fun k => k = key) fields.entries = ((fields.get? key).bind (·.value.asInt?)).getD 0 := by
  have none : ∀ l : List (FieldKey × Cell), (∀ e ∈ l, e.1 ≠ key) → tally (fun k => k = key) l = 0 := by
    intro l others
    induction l with
    | nil => rfl
    | cons e rest ih =>
      rw [tally, ih fun d mem => others d (List.mem_cons_of_mem e mem)]
      simp [others e List.mem_cons_self]
  obtain ⟨l, sorted⟩ := fields
  show _ = (((l.find? (fun e => e.1 = key)).map Prod.snd).bind (·.value.asInt?)).getD 0
  induction l with
  | nil => rfl
  | cons e rest ih =>
    obtain ⟨below, sorted⟩ := List.pairwise_cons.mp sorted
    by_cases here : e.1 = key
    · have absent : tally (fun k => k = key) rest = 0 := by
        refine none rest fun d mem same => ?_
        exact Std.lt_irrefl (here ▸ same ▸ below d mem)
      rw [tally, absent, List.find?_cons_of_pos (by simpa using here)]
      simp [here]
    · rw [tally, ih sorted, List.find?_cons_of_neg (by simpa using here)]
      simp [here]

/-- The sum of two fields, if no other fields are counted. -/
theorem tally_eq_add (fields : OrderedMap FieldKey Cell) {counted : FieldKey → Bool} {a b : FieldKey} (differ : a ≠ b)
    (first : counted a = true) (second : counted b = true)
    (only : ∀ e ∈ fields.entries, counted e.1 = true → e.1 = a ∨ e.1 = b) :
    tally counted fields.entries =
      ((fields.get? a).bind (·.value.asInt?)).getD 0 + ((fields.get? b).bind (·.value.asInt?)).getD 0 := by
  rw [← tally_eq, ← tally_eq]
  refine tally_split (fun e mem => ?_) fun key same => ?_
  · have either := only e mem
    rw [Bool.eq_iff_iff]
    simp only [Bool.or_eq_true, decide_eq_true_eq]
    exact ⟨either, fun same => same.elim (fun same => same ▸ first) fun same => same ▸ second⟩
  · exact decide_eq_false fun other => differ ((of_decide_eq_true same).symm.trans other)

theorem isSome_afterLeading? (word key : String) :
    (Text.afterLeading? word key).isSome = FieldKey.begins key word := by
  unfold Text.afterLeading? FieldKey.begins
  split
  · rename_i start
    exact start.symm
  · rename_i start
    exact (Bool.eq_false_iff.mpr start).symm

theorem isHit_hitKey (p : ParticipantId) : isHit (hitKey p) = true := by
  unfold hitKey
  simp [isHit, isSome_afterLeading?, FieldKey.begins, toString_string]

theorem isHit_falseAlarmKey (p : ParticipantId) : isHit (falseAlarmKey p) = false := by
  unfold falseAlarmKey
  simp [isHit, isSome_afterLeading?, FieldKey.begins, toString_string, List.isPrefixOf]

theorem isFalseAlarm_hitKey (p : ParticipantId) : isFalseAlarm (hitKey p) = false := by
  simp [isFalseAlarm, isHit_hitKey]

theorem isFalseAlarm_falseAlarmKey (p : ParticipantId) : isFalseAlarm (falseAlarmKey p) = true := by
  rw [isFalseAlarm, isHit_falseAlarmKey]
  unfold falseAlarmKey
  simp [isSome_afterLeading?, FieldKey.begins, toString_string]

/-- Only counters are added up. -/
theorem begins_of_tallied {key : FieldKey} (h : isHit key = true ∨ isFalseAlarm key = true) :
    key.begins "performance-" = true := by
  have widen : ∀ word : String, key.begins ("performance-" ++ word) = true → key.begins "performance-" = true := by
    intro word longer
    simp only [FieldKey.begins, List.isPrefixOf_iff_prefix, String.toList_append] at longer ⊢
    exact (List.prefix_append _ _).trans longer
  rcases h with hit | falseAlarm
  · rw [isHit, isSome_afterLeading?] at hit
    exact widen "hit-" hit
  · rw [isFalseAlarm, isSome_afterLeading?] at falseAlarm
    exact widen "fa-" (Bool.and_eq_true_iff.mp falseAlarm).2

/-- **The totals are sums over two participants**, if nobody else has counters. -/
theorem monitoringTotals_eq {s : TaskState} {p q : ParticipantId} (differ : p ≠ q)
    (counters : ∀ key cell, key.begins "performance-" = true → s.cell? key = some cell →
      (key = hitKey p ∨ key = falseAlarmKey p) ∨ key = hitKey q ∨ key = falseAlarmKey q) :
    s.monitoringTotals =
      (s.int (hitKey p) + s.int (hitKey q), s.int (falseAlarmKey p) + s.int (falseAlarmKey q)) := by
  have entry : ∀ e ∈ s.fields.entries, isHit e.1 = true ∨ isFalseAlarm e.1 = true →
      (e.1 = hitKey p ∨ e.1 = falseAlarmKey p) ∨ e.1 = hitKey q ∨ e.1 = falseAlarmKey q := fun e mem tallied =>
    counters e.1 e.2 (begins_of_tallied tallied) ((s.fields.get?_eq_some_iff e.1 e.2).mpr mem)
  have hits := tally_eq_add s.fields (fun same => differ (hitKey_inj same)) (isHit_hitKey p) (isHit_hitKey q)
    fun e mem hit => by
      have no : ∀ r, e.1 ≠ falseAlarmKey r := fun r same => by
        rw [same, isHit_falseAlarmKey] at hit
        cases hit
      simpa [no] using entry e mem (Or.inl hit)
  have falseAlarms := tally_eq_add s.fields (fun same => differ (falseAlarmKey_inj same))
    (isFalseAlarm_falseAlarmKey p) (isFalseAlarm_falseAlarmKey q) fun e mem falseAlarm => by
      have no : ∀ r, e.1 ≠ hitKey r := fun r same => by
        rw [same, isFalseAlarm_hitKey] at falseAlarm
        cases falseAlarm
      simpa [no] using entry e mem (Or.inr falseAlarm)
  have shown : ∀ key, s.int key = ((s.fields.get? key).bind (·.value.asInt?)).getD 0 := by
    intro key
    unfold int get? cell?
    rw [Option.bind_map]
    rfl
  rw [monitoringTotals_eq_tally, hits, falseAlarms, shown, shown, shown, shown]

end TaskState

end Tandem
