import Tandem.Proofs.Task.Lamps
/-!
# Lights show their failures

In a run of two sides the lights are set by the script, and acknowledged by both participants: on the own side, once
more on the other side, and as a delta, which may come again at any time.  The stamps decide about the failure and the
lamp of a light one by one.  Nevertheless every light shows its failure on both sides at any time
(`Setting.lights_show`), whatever the network mode of the task is.

`Battery.Lit` is what holds of the battery of a side, and every operation keeps it.  What a side sends about the
monitoring task has been written by an acknowledgement on a battery that is lit (`SyncMessage.Lights`).  That needs the
clock: an own acknowledgement is stamped above all cells of the task, so that all that it has written is sent, and not
one of the two cells of a light without the other one.
-/

namespace Tandem

/-! ## One battery -/

/-- What has been written to the monitoring task by an acknowledgement of a gauge that is there, with pairs of writes to
the lights. -/
structure AckWrites (stamp : Stamp) (changes : List FieldChange) : Prop where
  writes : ∃ g : Gauge, InputWrites stamp (.monitoringAck g) changes ∧ (changes ≠ [] → g.isInstalled = true)
  writer : ∃ p, stamp.writer = .participant p
  pairs : PairsLights changes

/-- What holds of a battery at any time: the lights are in order, and the clock is not behind the monitoring task. -/
structure Battery.Lit (b : Battery) (clock : StampClock) : Prop where
  monitors : b.Monitors clock
  lights : (b.store.read .monitoring).Lights

/-- Only acknowledgements are about the monitoring task. -/
theorem InputPayload.exists_acknowledge {payload : InputPayload} (task : payload.task = .monitoring) :
    ∃ g, payload = .monitoringAck g := by
  cases payload with
  | monitoringAck g => exact ⟨g, rfl⟩
  | trackingMove | communicationTune | pumpToggle | matchSelect | matchCentering => cases task

namespace Battery.Lit

variable {b : Battery} {clock clock' : StampClock}

theorem new (capacity : Nat) (participants : ParticipantId × ParticipantId) (clock : StampClock) :
    (Battery.new capacity participants).Lit clock where
  monitors := .new capacity participants clock
  lights := by
    have start : (Battery.new capacity participants).store.read .monitoring = TaskState.initial .monitoring :=
      PerTask.get_ofFn ..
    rw [start]
    exact TaskState.lights_initial

/-- A command of the script. -/
theorem run (h : b.Lit clock) {c : ScenarioCommand} (known : c.SetsKnown) (spares : c.SparesLights) :
    (b.run c).1.Lit (clock.observe c.stamp) where
  monitors := h.monitors.run known
  lights := by
    by_cases target : c.payload.task? = some .monitoring
    · have installed : ∀ g : Gauge, g.isInstalled = true → (b.cell? .monitoring g.failureKey).isSome = true :=
        fun g there => (h.monitors.gauges g).trans there
      have pairs := Battery.pairs_scripted h.monitors.task h.lights installed known spares target
      refine h.lights.write pairs fun key => (b.cell?_run c .monitoring key).trans ?_
      rw [scriptedAt, if_pos target]
      rfl
    · rw [b.read_run, if_neg target]
      exact h.lights

/-- What an acknowledgement has written. -/
theorem apply (h : b.Lit clock) {stamp : Stamp} {changes : List FieldChange} (ack : AckWrites stamp changes)
    (later : clock.moment ≤ clock'.moment) (seen : changes ≠ [] → stamp.moment ≤ clock'.moment) (origin : Origin) :
    (b.apply ⟨.monitoring, origin, changes⟩).1.Lit clock' where
  monitors := by
    obtain ⟨g, writes, installed⟩ := ack.writes
    obtain ⟨p, writer⟩ := ack.writer
    exact h.monitors.apply writes writer later seen installed origin
  lights := h.lights.write ack.pairs (b.cell?_apply ⟨.monitoring, origin, changes⟩ .monitoring)

/-- What an acknowledgement writes where it is run. -/
theorem ackWrites (h : b.Lit clock) (g : Gauge) {stamp : Stamp} {p : ParticipantId}
    (writer : stamp.writer = .participant p) :
    AckWrites stamp ((b.store.read .monitoring).inputChanges (.monitoringAck g) stamp) where
  writes := ⟨g, TaskState.inputWrites _ _ _, h.monitors.isInstalled_of_changes⟩
  writer := ⟨p, writer⟩
  pairs := h.lights.pairs_acknowledge g stamp

/-- An input, own or forwarded. -/
theorem applyInput (h : b.Lit clock) {e : InputEvent} (aimed : e.target = e.payload.task) {stamp : Stamp}
    {p : ParticipantId} (writer : stamp.writer = .participant p) (later : clock.moment ≤ clock'.moment)
    (seen : stamp.moment ≤ clock'.moment) (origin : Origin) : (b.applyInput e stamp origin).1.Lit clock' := by
  by_cases target : e.target = .monitoring
  · obtain ⟨g, payload⟩ := InputPayload.exists_acknowledge (aimed.symm.trans target)
    rw [b.applyInput_eq (by rw [payload]; nofun), target, payload]
    exact h.apply (h.ackWrites g writer) later (fun _ => seen) origin
  · have read := b.read_applyInput_of_ne target stamp origin
    exact ⟨h.monitors.same later read, read ▸ h.lights⟩

/-- **An own acknowledgement takes effect as a whole**, so that all that it writes is sent. -/
theorem ackWrites_applied (h : b.Lit clock) (room : clock.HasRoom) {e : InputEvent}
    (aimed : e.target = e.payload.task) (target : e.target = .monitoring) (now : SessionTime) {origin : Origin}
    {outcome : Outcome} (applied : (b.applyInput e (clock.issue now).1 origin).2 = .ok outcome) :
    AckWrites (clock.issue now).1 outcome.applied := by
  obtain ⟨g, payload⟩ := InputPayload.exists_acknowledge (aimed.symm.trans target)
  have ahead := (StampClock.moment_issue room now).1
  have above : ∀ key, Below (b.cell? .monitoring key) (clock.issue now).1 := fun key held found =>
    Stamp.lt_of_moment_lt (Nat.lt_of_le_of_lt (h.monitors.dominated key held found) ahead)
  have writes := (b.store.read .monitoring).inputWrites (.monitoringAck g) (clock.issue now).1
  have ack := h.ackWrites g (clock.writer_issue now).1
  rw [b.applyInput_eq (by rw [payload]; nofun), target, payload] at applied
  generalize (b.store.read .monitoring).inputChanges (.monitoringAck g) (clock.issue now).1 = changes
    at writes ack applied
  have whole := b.applied_apply (m := ⟨.monitoring, origin, changes⟩) writes.apart fun c mem held found =>
    writes.stamp_eq mem ▸ above c.key held found
  rw [← Except.ok.inj applied, whole]
  exact ack

end Battery.Lit

/-! ## One side -/

/-- A message with which a participant tells what has been entered: the input, under a stamp of the participant, and
what it has written, as far as it has to do with lights. -/
def SyncMessage.Lights : SyncMessage → Prop
  | .forward e stamp => e.target = e.payload.task ∧ ∃ p, stamp.writer = .participant p
  | .delta .monitoring changes => ∃ stamp, AckWrites stamp changes
  | _ => True

/-- What holds of a side at any time. -/
structure Side.Lit (a : Side) : Prop where
  battery : a.battery.Lit a.reconciler.clock
  sent : ∀ m ∈ a.sent, m.Lights

namespace Side.Lit

variable {a : Side}

theorem new (capacity : Nat) (pair : ParticipantId × ParticipantId) (p : ParticipantId) :
    (Side.new capacity pair p).Lit :=
  ⟨.new capacity pair _, List.forall_mem_nil _⟩

/-- A command of the script. -/
theorem playNext (h : a.Lit) {script : List ScenarioCommand} (known : ∀ c ∈ script, c.SetsKnown)
    (spares : ∀ c ∈ script, c.SparesLights) : (a.playNext script).Lit := by
  unfold Side.playNext
  cases next : script[a.played]? with
  | none => exact h
  | some c =>
    have mem := List.mem_of_getElem? next
    exact ⟨h.battery.run (known c mem) (spares c mem), h.sent⟩

/-- An input of the participant. -/
theorem input (h : a.Lit) (room : a.reconciler.clock.HasRoom) {e : InputEvent} (aimed : e.target = e.payload.task)
    (now : SessionTime) : (a.input e now).Lit := by
  obtain ⟨ahead, level⟩ := StampClock.moment_issue room now
  have writer := (a.reconciler.clock.writer_issue now).1
  obtain ⟨clock, -, battery, said⟩ := a.reconciler.onLocalInput_outcome a.battery e now
  constructor
  · show (a.reconciler.onLocalInput a.battery e now).2.1.Lit (a.reconciler.onLocalInput a.battery e now).1.clock
    rw [battery, clock]
    exact h.battery.applyInput aimed writer (by omega) (Nat.le_of_eq level.symm) _
  · show ∀ m ∈ a.sent ++ (a.reconciler.onLocalInput a.battery e now).2.2, m.Lights
    refine List.forall_mem_append.mpr ⟨h.sent, ?_⟩
    rcases said with none | ⟨outcome, applied, said⟩
    · rw [none]
      exact List.forall_mem_nil _
    · rw [said]
      refine List.forall_mem_cons.mpr ⟨⟨aimed, _, writer⟩, List.forall_mem_singleton.mpr ?_⟩
      cases target : e.target with
      | monitoring => exact ⟨_, h.battery.ackWrites_applied room aimed target now applied⟩
      | tracking | communications | resources | matching | scoreboard | instruction | genericScales | flag => trivial

/-- A message of the other side. -/
theorem take (h : a.Lit) (sender : ParticipantId) {m : SyncMessage} (lights : m.Lights) (n : Nat) :
    Lit { a.take sender m with taken := n } := by
  refine ⟨?_, h.sent⟩
  show (a.reconciler.onRemoteMessage a.battery sender m).2.1.Lit
    (a.reconciler.onRemoteMessage a.battery sender m).1.clock
  rcases a.reconciler.onRemoteMessage_cases a.battery sender m with
    ⟨clock, battery⟩ | ⟨e, stamp, rfl, clock, battery⟩ | ⟨t, changes, rfl, clock, battery⟩
  · rw [battery, clock]
    exact h.battery
  · obtain ⟨aimed, p, writer⟩ := lights
    obtain ⟨later, seen⟩ := a.reconciler.clock.moment_observe stamp
    rw [battery, clock]
    exact h.battery.applyInput aimed writer later seen _
  · obtain ⟨-, later, seen⟩ := StampClock.foldl_observe changes a.reconciler.clock
    rw [battery, clock]
    by_cases target : t = .monitoring
    · subst target
      obtain ⟨stamp, ack⟩ := lights
      refine h.battery.apply ack later (fun wrote => ?_) _
      obtain ⟨c, mem⟩ := List.exists_mem_of_ne_nil changes wrote
      obtain ⟨g, writes, -⟩ := ack.writes
      exact writes.stamp_eq mem ▸ seen c mem
    · have read : (a.battery.apply ⟨t, .remoteDelta sender, changes⟩).1.store.read .monitoring =
          a.battery.store.read .monitoring := (Store.read_apply _ _ _).trans (if_neg target)
      exact ⟨h.battery.monitors.same later read, read ▸ h.battery.lights⟩

end Side.Lit

/-! ## Runs -/

namespace Setting

variable {w : Setting}

/-- Both sides are lit throughout a run. -/
theorem lit_after {moves : List SideMove} (known : ∀ c ∈ w.script, c.SetsKnown)
    (spares : ∀ c ∈ w.script, c.SparesLights)
    (room : ∀ k r, ((w.after (moves.take k)).get r).reconciler.clock.HasRoom) (k : Nat) (r : Role) :
    ((w.after (moves.take k)).get r).Lit := by
  refine forall_side_after (P := fun _ a => a.Lit) (fun r => ?_) (fun _ _ h => h.playNext known spares)
    (fun _ _ _ now _ h room => h.input room rfl now)
    (fun r _ _ _ n h other mem => h.take (w.participants.get r.other) (other.sent _ mem) n) room k r
  cases r <;> exact .new _ _ _

/-- **Lights show their failures.**  If every parameter of the script is known and none is the lamp or the default state
of a light, and no clock runs out of counters, then at any time of a run, on both sides, every light has its lamp on
exactly if either it is on by default or it fails, and the cells of its failure and of its lamp have the same stamp.
Both are there for the lights that the task starts with, and for no others. -/
theorem lights_show {moves : List SideMove} (known : ∀ c ∈ w.script, c.SetsKnown)
    (spares : ∀ c ∈ w.script, c.SparesLights)
    (room : ∀ k r, ((w.after (moves.take k)).get r).reconciler.clock.HasRoom) (k : Nat) (r : Role) (n : UInt8) :
    let monitoring := ((w.after (moves.take k)).get r).battery.store.read .monitoring
    monitoring.ShowsFailure n ∧
      (monitoring.cell? (Gauge.light n).failureKey).isSome = (Gauge.light n).isInstalled := by
  have lit := (lit_after known spares room k r).battery
  exact ⟨lit.lights.showsFailure n, lit.monitors.gauges (.light n)⟩

/-- A run in which a light fails and both participants acknowledge it.  It is on by default: its lamp goes off on the
side of the host when the script has been run there, and is on again in the end. -/
theorem lights_show_crossedRun : (∀ c ∈ lights.script, c.SetsKnown ∧ c.SparesLights) ∧
    (∀ k r, ((lights.after (crossedRun.take k)).get r).reconciler.clock.HasRoom) ∧
      (∀ k r, (((lights.after (crossedRun.take k)).get r).battery.store.read .monitoring).ShowsFailure 1) ∧
        ([0, 2, 14].map fun k =>
          ((lights.after (crossedRun.take k)).get .host).battery.store.read .monitoring |>.bool (Light.lampKey 1)) =
            [true, false, true] := by
  have spares : ∀ c ∈ lights.script, c.SparesLights := by
    simp only [lights, List.forall_mem_cons, List.not_mem_nil, false_imp_iff, implies_true, and_true]
    -- The parameter is the failure of a light, which is none of the two.
    have failure : "lights-1-failure" = (Gauge.light 1).failureKey := by decide
    refine ⟨fun n raw => by simp, fun n raw => ⟨fun same => ?_, fun same => ?_⟩⟩
    · exact (Gauge.light 1).failureKey_ne_lightOn n (failure.symm.trans (CommandPayload.set.inj same).2.1)
    · exact (Light.defaultKey_ne n 1).1 (failure.symm.trans (CommandPayload.set.inj same).2.1).symm
  have known := watches_crossedRun.known
  have room := watches_crossedRun.room
  refine ⟨fun c mem => ⟨known c mem, spares c mem⟩, room, fun k r => (lights_show known spares room k r 1).1, ?_⟩
  decide +kernel

end Setting

end Tandem
