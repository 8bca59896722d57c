import Tandem.Proofs.Task.Furnishing
/-!
# Lamps

A light of the monitoring task has a default state, and a lamp that shows the opposite of it while the light fails.
The failure and the lamp are two fields, and the stamps decide about each of them on its own.  But whatever writes one
of the two writes the other one as well, under the same stamp (`PairsLights`): a scripted failure, and an
acknowledgement, also where it is run once more on other values.  Of two cells with one stamp such a pair of writes
replaces both or none (`LightCells.write`), so that they stay a pair.
-/

namespace Tandem

/-! ## The fields of a light -/

namespace Light

/-- The address of the lamp of a light. -/
def lampKey (n : UInt8) : FieldKey := s!"{(Gauge.light n).address}-on"

/-- The address of the default state of a light. -/
def defaultKey (n : UInt8) : FieldKey := s!"{(Gauge.light n).address}-default"

/-- Whether a light is on by default. -/
def isOnByDefault (n : UInt8) : Bool := (TaskState.initial .monitoring).text (defaultKey n) = "on"

/-- The field is none of those of a light, whichever light it is. -/
def IsNoKey (key : FieldKey) : Prop :=
  ∀ n : UInt8, key ≠ (Gauge.light n).failureKey ∧ key ≠ lampKey n ∧ key ≠ defaultKey n

section

attribute [local simp] FieldKey.begins FieldKey.ends Gauge.failureKey Gauge.address toString_string List.isPrefixOf

theorem begins_keys (n : UInt8) : (Gauge.light n).failureKey.begins "lights-" = true ∧
    (lampKey n).begins "lights-" = true ∧ (defaultKey n).begins "lights-" = true := by
  simp [lampKey, defaultKey]

theorem ends_keys (n : UInt8) : (Gauge.light n).failureKey.ends "-default" = false ∧
    (lampKey n).ends "-default" = false ∧ (defaultKey n).ends "-default" = true := by
  simp [lampKey, defaultKey]

end

theorem defaultKey_ne (m n : UInt8) : defaultKey m ≠ (Gauge.light n).failureKey ∧ defaultKey m ≠ lampKey n := by
  obtain ⟨failure, lamp, -⟩ := ends_keys n
  obtain ⟨-, -, default⟩ := ends_keys m
  constructor
  · intro same
    rw [same, failure] at default
    cases default
  · intro same
    rw [same, lamp] at default
    cases default

theorem isNoKey_of_begins {key : FieldKey} (other : key.begins "lights-" = false) : IsNoKey key := by
  intro n
  obtain ⟨failure, lamp, default⟩ := begins_keys n
  refine ⟨?_, ?_, ?_⟩ <;> rintro rfl
  · exact Bool.false_ne_true (other.symm.trans failure)
  · exact Bool.false_ne_true (other.symm.trans lamp)
  · exact Bool.false_ne_true (other.symm.trans default)

/-- A light is known by its number. -/
theorem eq_of_address {m n : UInt8} {part : String}
    (same : (Gauge.light m).address ++ part = (Gauge.light n).address ++ part) : m = n := by
  have letters := congrArg String.toList same
  simp only [String.toList_append, List.append_left_inj] at letters
  have number := TaskState.failingLight?_failureKey m
  rw [Gauge.failureKey, String.toList_inj.mp letters] at number
  exact (Option.some.inj ((TaskState.failingLight?_failureKey n).symm.trans number)).symm

end Light

/-- A failure of a light that is named is the failure of a light. -/
theorem Light.begins_of_failingLight? {key : FieldKey} {n : UInt8} (named : TaskState.failingLight? key = some n) :
    key.begins "lights-" = true ∧ key.ends "-failure" = true := by
  unfold TaskState.failingLight? at named
  split at named
  · rename_i number pieces
    obtain ⟨-, -, rfl⟩ := Text.pieces_eq_iff.mp pieces
    simp [FieldKey.begins, FieldKey.ends, List.isPrefixOf]
  · cases named

/-- An address starts in one way only. -/
theorem FieldKey.begins_of_begins {key : FieldKey} {word other : String} (h : key.begins word = true)
    (apart : (word.toList.isPrefixOf other.toList || other.toList.isPrefixOf word.toList) = false) :
    key.begins other = false :=
  Bool.eq_false_iff.mpr fun both => Bool.false_ne_true (apart.symm.trans (begins_nested h both))

/-- There are two lights. -/
theorem Light.of_mem_defaults {d : FieldKey × FieldValue} (mem : d ∈ TaskId.defaults .monitoring)
    (light : d.1.begins "lights-" = true) {part : String} (listed : part ∈ ["-failure", "-on", "-default"])
    (ends_ : d.1.ends part = true) : d.1 = (Gauge.light 1).address ++ part ∨ d.1 = (Gauge.light 2).address ++ part := by
  have table : ∀ d ∈ TaskId.defaults .monitoring, d.1.begins "lights-" = true →
      ∀ part ∈ ["-failure", "-on", "-default"], d.1.ends part = true →
        d.1 = (Gauge.light 1).address ++ part ∨ d.1 = (Gauge.light 2).address ++ part := by
    decide +kernel
  exact table d mem light part listed ends_

/-! ## A pair of cells -/

open Light

/-- The cells of the failure and of the lamp of a light: both are there, under one stamp, and the lamp shows the
failure, or both are not there. -/
inductive LightCells (onByDefault : Bool) : Option Cell → Option Cell → Prop where
  | absent (off : onByDefault = false) : LightCells onByDefault none none
  | present (failing : Bool) (stamp : Stamp) : LightCells onByDefault
      (some ⟨.bool failing, stamp⟩) (some ⟨.bool (onByDefault != failing), stamp⟩)

/-- The write that makes a light fail or not under a stamp. -/
def failureChange (n : UInt8) (write : Bool × Stamp) : FieldChange :=
  ⟨(Gauge.light n).failureKey, .bool write.1, write.2⟩

/-- The write of the lamp that goes with it. -/
def lampChange (n : UInt8) (write : Bool × Stamp) : FieldChange :=
  ⟨lampKey n, .bool (isOnByDefault n != write.1), write.2⟩

/-- What is written to a truth value stands, if its stamp is not below. -/
theorem writeCell_bool {key : FieldKey} {held value : Bool} {stamp stamp' : Stamp} (upTo : stamp ≤ stamp') :
    writeCell (some ⟨.bool held, stamp⟩) ⟨key, .bool value, stamp'⟩ = some ⟨.bool value, stamp'⟩ := by
  unfold writeCell
  split
  · rfl
  · -- Only what is there already is refused.
    rename_i refused
    obtain ⟨rfl, rfl⟩ : stamp' = stamp ∧ value = held := by
      simpa [TaskState.admits, upTo, FieldValue.same] using refused
    rfl

namespace LightCells

variable {n : UInt8} {onByDefault : Bool} {failure lamp : Option Cell}

/-- **A pair of writes replaces both cells or none.** -/
theorem write (h : LightCells (isOnByDefault n) failure lamp)
    (write : Bool × Stamp) : LightCells (isOnByDefault n)
      (writeCell failure (failureChange n write)) (writeCell lamp (lampChange n write)) := by
  cases h with
  | absent => exact .present write.1 write.2
  | present failing stamp =>
    by_cases upTo : stamp ≤ write.2
    · rw [failureChange, lampChange, writeCell_bool upTo, writeCell_bool upTo]
      exact .present write.1 write.2
    · have below : write.2 < stamp := Std.not_le.mp upTo
      rw [writeCell_below ⟨.bool failing, stamp⟩ (c := failureChange n write) below,
        writeCell_below ⟨.bool (isOnByDefault n != failing), stamp⟩ (c := lampChange n write) below]
      exact .present failing stamp

theorem foldl (h : LightCells (isOnByDefault n) failure lamp)
    (writes : List (Bool × Stamp)) : LightCells (isOnByDefault n)
      ((writes.map (failureChange n)).foldl writeCell failure) ((writes.map (lampChange n)).foldl writeCell lamp) := by
  induction writes generalizing failure lamp with
  | nil => exact h
  | cons write rest ih => exact ih (h.write write)

/-- A failure that is there is a truth value. -/
theorem eq_bool (h : LightCells onByDefault failure lamp) (there : failure.isSome = true) :
    ∃ failing stamp, failure = some ⟨.bool failing, stamp⟩ := by
  cases h with
  | absent => cases there
  | present failing stamp => exact ⟨failing, stamp, rfl⟩

theorem stamp_eq (h : LightCells onByDefault failure lamp) :
    lamp.map Cell.stamp = failure.map Cell.stamp := by
  cases h <;> rfl

theorem shows (h : LightCells onByDefault failure lamp) :
    ((lamp.map Cell.value).bind (·.asBool?)).getD false =
      (onByDefault != ((failure.map Cell.value).bind (·.asBool?)).getD false) := by
  cases h with
  | absent off =>
    rw [off]
    rfl
  | present => rfl

end LightCells

/-- A batch that writes the failures and the lamps of lights in pairs only, and no default states. -/
structure PairsLights (changes : List FieldChange) : Prop where
  defaults : ∀ n, changes.filter (fun c => c.key = defaultKey n) = []
  pairs : ∀ n, ∃ writes : List (Bool × Stamp),
    changes.filter (fun c => c.key = (Gauge.light n).failureKey) = writes.map (failureChange n) ∧
      changes.filter (fun c => c.key = lampKey n) = writes.map (lampChange n)

namespace PairsLights

variable {changes : List FieldChange}

/-- A batch that has nothing to do with lights. -/
theorem of_isNoKey (others : ∀ c ∈ changes, IsNoKey c.key) : PairsLights changes where
  defaults n := List.filter_eq_nil_iff.mpr fun c mem => by simpa using (others c mem n).2.2
  pairs n := ⟨[], List.filter_eq_nil_iff.mpr fun c mem => by simpa using (others c mem n).1,
    List.filter_eq_nil_iff.mpr fun c mem => by simpa using (others c mem n).2.1⟩

/-- One pair of writes. -/
theorem pair (n : UInt8) (write : Bool × Stamp) : PairsLights [failureChange n write, lampChange n write] where
  defaults m := by
    obtain ⟨failure, lamp⟩ := defaultKey_ne m n
    simp [failureChange, lampChange, failure.symm, lamp.symm]
  pairs m := by
    have apart : (Gauge.light n).failureKey ≠ lampKey m := (Gauge.light n).failureKey_ne_lightOn m
    have apart' : lampKey n ≠ (Gauge.light m).failureKey := ((Gauge.light m).failureKey_ne_lightOn n).symm
    by_cases here : n = m
    · subst here
      exact ⟨[write], by simp [failureChange, lampChange, apart'], by simp [failureChange, lampChange, apart]⟩
    · have failure : (Gauge.light n).failureKey ≠ (Gauge.light m).failureKey := fun same => here (eq_of_address same)
      have lamp : lampKey n ≠ lampKey m := fun same => here (eq_of_address same)
      exact ⟨[], by simp [failureChange, lampChange, failure, apart'],
        by simp [failureChange, lampChange, lamp, apart]⟩

theorem append {more : List FieldChange} (h : PairsLights changes) (h' : PairsLights more) :
    PairsLights (changes ++ more) where
  defaults n := by rw [List.filter_append, h.defaults, h'.defaults, List.append_nil]
  pairs n := by
    obtain ⟨writes, failure, lamp⟩ := h.pairs n
    obtain ⟨writes', failure', lamp'⟩ := h'.pairs n
    exact ⟨writes ++ writes', by rw [List.filter_append, failure, failure', List.map_append],
      by rw [List.filter_append, lamp, lamp', List.map_append]⟩

end PairsLights

/-! ## The lights of the monitoring task -/

namespace TaskState

variable {s s' : TaskState}

/-- The lights of the monitoring task: their default states are those of the start of a session, and their cells are
pairs. -/
structure Lights (s : TaskState) : Prop where
  default : ∀ n, s.cell? (defaultKey n) = (initial .monitoring).cell? (defaultKey n)
  pair : ∀ n, LightCells (isOnByDefault n) (s.cell? (Gauge.light n).failureKey) (s.cell? (lampKey n))

/-- A light shows its failure: its lamp is on exactly if either it is on by default or it fails, and its lamp has been
written when its failure has been written. -/
structure ShowsFailure (s : TaskState) (n : UInt8) : Prop where
  lamp : s.bool (lampKey n) = (decide (s.text (defaultKey n) = "on") != s.bool (Gauge.light n).failureKey)
  stamp : (s.cell? (lampKey n)).map Cell.stamp = (s.cell? (Gauge.light n).failureKey).map Cell.stamp

theorem lights_initial : (initial .monitoring).Lights where
  default _ := rfl
  pair n := by
    have table : ∀ m ∈ [1, 2], (initial .monitoring).cell? (Gauge.light m).failureKey = some ⟨.bool false, .genesis⟩ ∧
        (initial .monitoring).cell? (lampKey m) = some ⟨.bool (isOnByDefault m != false), .genesis⟩ := by
      decide +kernel
    by_cases installed : n ∈ [1, 2]
    · obtain ⟨failure, lamp⟩ := table n installed
      rw [failure, lamp]
      exact .present false .genesis
    · have none : ∀ part ∈ ["-failure", "-on", "-default"],
          (initial .monitoring).cell? ((Gauge.light n).address ++ part) = none := by
        intro part listed
        refine cell?_initial_of_ne fun d mem same => installed ?_
        have keys := Light.of_mem_defaults mem (same ▸ ?_) listed (same ▸ ?_)
        · rw [same] at keys
          rcases keys with first | second
          · rw [Light.eq_of_address first]
            decide
          · rw [Light.eq_of_address second]
            decide
        · simp [FieldKey.begins, Gauge.address, toString_string, List.isPrefixOf]
        · simp [FieldKey.ends]
      have off : isOnByDefault n = false := by
        unfold isOnByDefault text get?
        rw [show (initial .monitoring).cell? (defaultKey n) = Option.none from none "-default" (by decide)]
        rfl
      rw [show (initial .monitoring).cell? (Gauge.light n).failureKey = Option.none from none "-failure" (by decide),
        show (initial .monitoring).cell? (lampKey n) = Option.none from none "-on" (by decide)]
      exact .absent off

namespace Lights

theorem text_default (h : s.Lights) (n : UInt8) : decide (s.text (defaultKey n) = "on") = isOnByDefault n := by
  unfold isOnByDefault text get?
  rw [h.default]

/-- **Lights that are in order show their failures.** -/
theorem showsFailure (h : s.Lights) (n : UInt8) : s.ShowsFailure n where
  lamp := by
    rw [h.text_default]
    exact (h.pair n).shows
  stamp := (h.pair n).stamp_eq

/-- Writes in pairs keep the lights in order. -/
theorem write (h : s.Lights) {changes : List FieldChange} (pairs : PairsLights changes)
    (cells : ∀ key, s'.cell? key = (changes.filter (fun c => c.key = key)).foldl writeCell (s.cell? key)) :
    s'.Lights where
  default n := by
    rw [cells, pairs.defaults]
    exact h.default n
  pair n := by
    obtain ⟨writes, failure, lamp⟩ := pairs.pairs n
    rw [cells, cells, failure, lamp]
    exact (h.pair n).foldl writes

/-- What an acknowledgement writes to a light is a pair: the light does not fail, and its lamp shows that. -/
theorem gaugeChanges_light (h : s.Lights) (n : UInt8) (stamp : Stamp) :
    s.gaugeChanges (.light n) (s.isFailing (.light n)) stamp =
      [failureChange n (false, stamp), lampChange n (false, stamp)] := by
  have default := h.text_default n
  have lamp := (h.showsFailure n).lamp
  rw [default] at lamp
  have on : decide (if s.isFailing (.light n) then s.text (defaultKey n) = "on" else s.bool (lampKey n) = true) =
      (isOnByDefault n != false) := by
    rw [Bool.bne_false]
    cases failing : s.isFailing (.light n) with
    | true => exact default
    | false =>
      rw [show s.bool (Gauge.light n).failureKey = false from failing, Bool.bne_false] at lamp
      simpa using lamp
  exact congrArg (fun on => [failureChange n (false, stamp), FieldChange.mk (lampKey n) (.bool on) stamp]) on

/-- **An acknowledgement writes in pairs**, whatever it is run on. -/
theorem pairs_acknowledge (h : s.Lights) (g : Gauge) (stamp : Stamp) :
    PairsLights (s.inputChanges (.monitoringAck g) stamp) := by
  have nothing : PairsLights [] := .of_isNoKey fun _ mem => absurd mem List.not_mem_nil
  unfold inputChanges
  split
  · exact nothing
  · dsimp only [acknowledgeChanges]
    split
    · rename_i p _ _
      -- The two counters come first.
      show PairsLights ([_, _] ++ s.gaugeChanges g (s.isFailing g) stamp)
      refine .append (.of_isNoKey ?_) ?_
      · simp only [List.forall_mem_cons, List.not_mem_nil, false_imp_iff, implies_true, and_true]
        exact ⟨isNoKey_of_begins (FieldKey.begins_of_begins (begins_hitKey p) (by decide)),
          isNoKey_of_begins (FieldKey.begins_of_begins (begins_falseAlarmKey p) (by decide))⟩
      · cases g with
        | light n =>
          rw [h.gaugeChanges_light]
          exact .pair n _
        | scale n =>
          refine .of_isNoKey (List.forall_mem_singleton.mpr (isNoKey_of_begins ?_))
          simp [FieldKey.begins, Gauge.address, toString_string, List.isPrefixOf]
    · exact nothing

/-- **A scripted parameter writes in pairs**, if it is no lamp and no default state. -/
theorem pairs_parameter (h : s.Lights) (task : s.task = .monitoring)
    (installed : ∀ g : Gauge, g.isInstalled = true → (s.cell? g.failureKey).isSome = true) {key : FieldKey}
    (known : TaskId.isKnownParameter .monitoring key = true) (spared : ∀ n, key ≠ lampKey n ∧ key ≠ defaultKey n)
    (raw : String) (stamp : Stamp) : PairsLights ((s.parameterChanges? key raw stamp).getD []) := by
  obtain ⟨d, listed, same⟩ := TaskId.exists_default_of_known known
  have unaliased : TaskId.radioAlias? .monitoring key = none := rfl
  rw [unaliased] at same
  cases made : s.parameterChanges? key raw stamp with
  | none => exact .of_isNoKey fun _ mem => absurd mem List.not_mem_nil
  | some changes =>
    obtain ⟨value, read, made⟩ := Option.bind_eq_some_iff.mp made
    obtain ⟨_, -, made⟩ := Option.bind_eq_some_iff.mp made
    rw [task, unaliased, Option.getD_none] at read made
    cases made
    obtain rfl : d.1 = key := same
    cases light : failingLight? d.1 with
    | none =>
      have lamp : s.lightChange? d.1 value stamp = none := by
        unfold lightChange?
        rw [light]
        cases (guard (s.task = .monitoring) : Option Unit) <;> rfl
      rw [lamp]
      refine .of_isNoKey (List.forall_mem_singleton.mpr fun n => ⟨fun same => ?_, spared n⟩)
      rw [show d.1 = _ from same, failingLight?_failureKey] at light
      cases light
    | some n =>
      have failure : d.1 = (Gauge.light n).failureKey := by
        obtain ⟨begins, ends_⟩ := begins_of_failingLight? light
        rcases Light.of_mem_defaults listed begins (by decide) ends_ with same | same
        · rw [show d.1 = (Gauge.light 1).failureKey from same, failingLight?_failureKey] at light
          exact same.trans (Option.some.inj light ▸ rfl)
        · rw [show d.1 = (Gauge.light 2).failureKey from same, failingLight?_failureKey] at light
          exact same.trans (Option.some.inj light ▸ rfl)
      rw [failure] at read ⊢
      have there := installed (.light n) (List.any_eq_true.mpr ⟨d, listed, decide_eq_true failure⟩)
      obtain ⟨held, stamp', found⟩ := (h.pair n).eq_bool there
      rw [parameterValue?, found] at read
      -- The value is of the type of the cell.
      have type := FieldValue.sameType_of_coerce? (v := .bool held) read
      obtain ⟨failing, rfl⟩ : ∃ failing, value = .bool failing := by
        cases value with
        | bool failing => exact ⟨failing, rfl⟩
        | _ => cases type
      have lamp : s.lightChange? (Gauge.light n).failureKey (.bool failing) stamp =
          some (lampChange n (failing, stamp)) := by
        unfold lightChange?
        rw [task, failingLight?_failureKey, lampChange, ← h.text_default]
        have asked : (guard (TaskId.monitoring = .monitoring) : Option Unit) = some () := rfl
        rw [asked]
        simp only [FieldValue.asBool?, Option.bind_eq_bind, Option.bind_some, lampKey, defaultKey]
        rfl
      rw [lamp]
      exact .pair n (failing, stamp)

end Lights

end TaskState

/-! ## What the script writes -/

/-- A command does not set the lamp of a light, nor its default state. -/
def ScenarioCommand.SparesLights (c : ScenarioCommand) : Prop :=
  ∀ n raw, c.payload ≠ .set (.task .monitoring) (lampKey n) raw ∧
    c.payload ≠ .set (.task .monitoring) (defaultKey n) raw

/-- The fields of actions are not those of lights. -/
theorem Light.isNoKey_of_actionType? {key : FieldKey} {v : FieldValue} (listed : actionType? key = some v) :
    IsNoKey key := by
  refine isNoKey_of_begins ?_
  unfold actionType? at listed
  split at listed
  · rename_i word
    rcases word with rfl | rfl | rfl <;> decide
  · split at listed
    · rename_i word
      rw [word]
      decide
    · split at listed
      · rename_i word
        rcases word with word | selection
        · simp only [List.mem_cons, List.not_mem_nil, or_false] at word
          rcases word with rfl | rfl | rfl | rfl <;> decide
        · exact FieldKey.begins_of_begins selection (by decide)
      · cases listed

/-- **A command writes to the lights in pairs.** -/
theorem Battery.pairs_scripted {b : Battery} {c : ScenarioCommand}
    (task : (b.store.read .monitoring).task = .monitoring) (lights : (b.store.read .monitoring).Lights)
    (installed : ∀ g : Gauge, g.isInstalled = true → (b.cell? .monitoring g.failureKey).isSome = true)
    (known : c.SetsKnown) (spares : c.SparesLights) (target : c.payload.task? = some .monitoring) :
    PairsLights (b.scripted c).2 := by
  cases payload : c.payload with
  | act at_ a =>
    rw [payload] at target
    cases at_ with
    | session => cases target
    | task t =>
      refine .of_isNoKey fun d mem => ?_
      obtain ⟨-, v, listed, -⟩ := Battery.typed_scripted_act payload mem
      exact isNoKey_of_actionType? listed
  | set at_ key raw =>
    rw [payload] at target
    cases at_ with
    | session => cases target
    | task t =>
      cases target
      have spared : ∀ n, key ≠ lampKey n ∧ key ≠ defaultKey n := by
        intro n
        constructor <;> rintro rfl
        · exact (spares n raw).1 payload
        · exact (spares n raw).2 payload
      have pairs := lights.pairs_parameter task installed (known _ key raw payload) spared raw c.stamp
      unfold scripted
      rw [payload]
      exact pairs

end Tandem
