import Mathlib.Data.List.Chain
import Tandem.Proofs.Peer.Finished
import Tandem.Proofs.Peer.MutationLog
import Tandem.Proofs.Peer.ScriptedPauses
/-!
# Phase and clock

The phase of a session says what its clock does: a waiting session has a clock that has not been started, a running
one has a clock that runs, and so on (`PeerPhase.Fits`).  Both are fields of a peer that a dozen operations write.
`Peer.Shifts` says once what these operations can do to the two of them.  They leave both as they are, or start, pause
or resume the session, or end it, and then the clock is moved in the one way that goes with it.

Everything else is read off from that: phase and clock fit together at every moment (`Shifts.fits`), phases follow each
other along few edges (`PeerPhase.Leads`), and session time does not go back (`Shifts.moves`).  Nothing leads to a
waiting session, so that a session that waits has always waited, and nothing of the script has been run
(`Moment.Unscripted`).  `Peer.consistent_performAll` puts this together with what is known of the end of a session.
-/

namespace Tandem

/-! ## What a phase says of the clock -/

namespace PeerPhase

/-- What the clock does in a phase. -/
def Fits : PeerPhase → SessionClock → Prop
  | waiting, c => c = .new
  | running, c => c.started = true ∧ c.paused = false
  | paused, c => c.started = true ∧ c.paused = true
  | ended, c | aborted, c => c.started = false

/-- A session is started; it is paused and resumed; and it ends, whatever its phase. -/
inductive Leads : PeerPhase → PeerPhase → Prop where
  | start : Leads waiting running
  | pause : Leads running paused
  | resume : Leads paused running
  | finish {phase phase' : PeerPhase} (on : phase.isFinished = false) (isOver : phase'.isFinished = true) :
      Leads phase phase'

variable {phase : PeerPhase} {c : SessionClock}

/-- A session is running exactly if its clock is. -/
theorem Fits.running_iff (h : phase.Fits c) : phase = running ↔ c.started = true ∧ c.paused = false := by
  cases phase with
  | waiting =>
    cases h
    exact iff_of_false nofun fun started => Bool.false_ne_true started.1
  | running => exact iff_of_true rfl h
  | paused => exact iff_of_false nofun fun goes => Bool.false_ne_true (goes.2.symm.trans h.2)
  | ended | aborted => exact iff_of_false nofun fun goes => Bool.false_ne_true (h.symm.trans goes.1)

/-- A session is paused exactly if its clock is. -/
theorem Fits.paused_iff (h : phase.Fits c) : phase = paused ↔ c.started = true ∧ c.paused = true := by
  cases phase with
  | waiting =>
    cases h
    exact iff_of_false nofun fun started => Bool.false_ne_true started.1
  | running => exact iff_of_false nofun fun held => Bool.false_ne_true (h.2.symm.trans held.2)
  | paused => exact iff_of_true rfl h
  | ended | aborted => exact iff_of_false nofun fun held => Bool.false_ne_true (h.symm.trans held.1)

/-- The clock of a session that is over has stopped. -/
theorem Fits.stopped (h : phase.Fits c) (isOver : phase.isFinished = true) : c.started = false := by
  cases phase with
  | waiting | running | paused => cases isOver
  | ended | aborted => exact h

end PeerPhase

namespace Peer

variable {p q r : Peer}

/-- How phase and clock of a peer go on. -/
inductive Shifts (p q : Peer) : Prop where
  | still (phase : q.phase = p.phase) (clock : q.clock = p.clock)
  | starts (waiting : p.phase = .waiting) (seed : SessionTime) (phase : q.phase = .running)
      (clock : q.clock = p.clock.startAt seed)
  | pauses (running : p.phase = .running) (time : SessionTime) (phase : q.phase = .paused)
      (clock : q.clock = (p.clock.syncTo time).pause)
  | resumes (paused : p.phase = .paused) (time : SessionTime) (phase : q.phase = .running)
      (clock : q.clock = (p.clock.syncTo time).resume)
  | ends (on : p.isFinished = false) (isOver : q.isFinished = true) (clock : q.clock = p.clock.stop)

/-! ## What every operation does -/

theorem Shifts.behind (h : q.Shifts r) (phase : q.phase = p.phase) (clock : q.clock = p.clock) : p.Shifts r := by
  cases h with
  | still phase' clock' => exact .still (phase'.trans phase) (clock'.trans clock)
  | starts waiting seed phase' clock' => exact .starts (phase ▸ waiting) seed phase' (clock ▸ clock')
  | pauses running time phase' clock' => exact .pauses (phase ▸ running) time phase' (clock ▸ clock')
  | resumes paused time phase' clock' => exact .resumes (phase ▸ paused) time phase' (clock ▸ clock')
  | ends on isOver clock' => exact .ends (by rw [isFinished, ← phase]; exact on) isOver (clock ▸ clock')

/-- A jump to the time that the clock shows is none. -/
theorem syncTo_now (c : SessionClock) : c.syncTo c.now = c := if_neg (UInt64.lt_irrefl _)

theorem clock_send (p : Peer) (m : SyncMessage) (now : SessionTime) : (p.send m now).clock = p.clock :=
  congrArg Stance.clock (p.stance_send m now)

theorem shifts_pause (p : Peer) : p.Shifts p.pause := by
  unfold pause
  by_cases running : p.phase = .running
  · rw [if_neg (not_not_intro running)]
    refine .pauses running p.now (phase_send _ _ _) ?_
    rw [clock_send, now, syncTo_now]
  · rw [if_pos running]
    exact .still rfl rfl

theorem shifts_resume (p : Peer) : p.Shifts p.resume := by
  unfold resume
  by_cases paused : p.phase = .paused
  · rw [if_neg (not_not_intro paused)]
    refine .resumes paused p.now (phase_send _ _ _) ?_
    rw [clock_send, now, syncTo_now]
  · rw [if_pos paused]
    exact .still rfl rfl

theorem shifts_terminate (p : Peer) : p.Shifts p.terminate := by
  unfold terminate
  by_cases isOver : p.isFinished = true
  · rw [if_pos isOver]
    exact .still rfl rfl
  · rw [if_neg isOver]
    refine .ends (Bool.eq_false_iff.mpr isOver) rfl ?_
    exact congrArg SessionClock.stop (p.clock_send .finish p.now)

theorem shifts_maybeStart (p : Peer) (now : SessionTime) : p.Shifts (p.maybeStart now) := by
  unfold maybeStart
  by_cases idle : p.config.role ≠ .host ∨ p.phase ≠ .waiting ∨ p.link.state ≠ .established
  · rw [if_pos idle]
    exact .still rfl rfl
  · rw [if_neg idle]
    have waiting : p.phase = .waiting := Decidable.of_not_not fun other => idle (Or.inr (Or.inl other))
    exact .starts waiting now (phase_send _ _ _) (clock_send _ _ _)

/-- A message that steers the session. -/
theorem shifts_onControl (p : Peer) (m : SyncMessage) : p.Shifts (p.onControl m) := by
  cases m with
  | start seed =>
    dsimp only [onControl, onStart]
    split
    · exact .starts ‹_› seed rfl rfl
    · exact .still rfl rfl
  | pause time =>
    dsimp only [onControl, onPause]
    split
    · exact .pauses ‹_› time rfl rfl
    · exact .still rfl rfl
  | resume time =>
    dsimp only [onControl, onResume]
    split
    · exact .resumes ‹_› time rfl rfl
    · exact .still rfl rfl
  | finish =>
    dsimp only [onControl]
    split
    · exact .still rfl rfl
    · exact .ends (Bool.eq_false_iff.mpr ‹_›) rfl rfl
  | delta | forward | heartbeat | hello => exact .still rfl rfl

theorem shifts_reconcile (p : Peer) (m : SyncMessage) : p.Shifts (p.reconcile m) := by
  unfold reconcile
  cases m.writeTime? with
  | none | some time =>
    dsimp only
    split
    · exact .still rfl rfl
    · exact .still rfl rfl
    · exact .still rfl rfl
    · exact .still rfl rfl
    · exact (shifts_onControl _ _).behind rfl rfl

theorem clock_applyInput (p : Peer) (payload : InputPayload) (now : SessionTime) :
    (p.applyInput payload now).clock = p.clock :=
  List.foldlRecOn (motive := fun q : Peer => q.clock = p.clock) _ _ rfl fun q same m _ => (q.clock_send m now).trans same

theorem shifts_applyLocalInputs (p : Peer) (now : SessionTime) : p.Shifts (p.applyLocalInputs now) := by
  obtain ⟨-, -, phase⟩ := p.goesOn_applyLocalInputs now
  refine .still phase ?_
  unfold applyLocalInputs
  dsimp only
  split
  · rfl
  · exact List.foldlRecOn (motive := fun q : Peer => q.clock = p.clock) _ _ rfl fun q same payload _ =>
      (q.clock_applyInput payload now).trans same

theorem shifts_onSessionCommand (p : Peer) (c : SessionCommand) (now : SessionTime) :
    p.Shifts (p.onSessionCommand c now) := by
  cases c with
  | finish => exact p.shifts_terminate
  | pause => exact p.shifts_pause
  | resume => exact p.shifts_resume
  | log | showLabels | allowEscape | allowAltF4 => exact .still rfl rfl

theorem shifts_runCommand (p : Peer) (c : ScenarioCommand) (now : SessionTime) : p.Shifts (p.runCommand c now) := by
  unfold runCommand
  dsimp only
  split
  · exact .still rfl rfl
  · exact (shifts_onSessionCommand _ _ now).behind rfl rfl
  · exact .still rfl rfl

theorem shifts_runLinkTimers (p : Peer) (now : SessionTime) : p.Shifts (p.runLinkTimers now) := by
  unfold runLinkTimers
  split
  · exact .still rfl rfl
  · dsimp only
    split
    · exact .still rfl rfl
    · exact .ends (Bool.eq_false_iff.mpr ‹_›) rfl rfl
  · exact .still rfl rfl

end Peer

/-- **A deed shifts phase and clock together**, if it shifts them at all. -/
theorem Deed.shifts {cause : Cause} {a b : Moment} (h : Deed cause a b) : a.peer.Shifts b.peer := by
  cases h with
  | @heeds p m rest => exact (Peer.shifts_reconcile { p with held := rest } m).behind rfl rfl
  | attends p now => exact p.shifts_applyLocalInputs now
  | withholds | handsOut | flushes => exact .still rfl rfl
  | runs p c rest now => exact p.shifts_runCommand c now
  | expires p now =>
    dsimp only
    unfold Peer.expireRounds
    split <;> exact .still rfl rfl
  | ticks p now => exact p.shifts_runLinkTimers now

namespace Peer

variable {p q : Peer}

/-- So does an action that is no step. -/
theorem shifts_perform (p : Peer) {action : PeerAction} (notStep : ∀ dt, action ≠ .step dt) :
    p.Shifts (p.perform action) := by
  cases action with
  | step dt => exact absurd rfl (notStep dt)
  | submit | pollTransmit | requeueOutbound | drainNotifications => exact .still rfl rfl
  | pause => exact p.shifts_pause
  | resume => exact p.shifts_resume
  | terminate => exact p.shifts_terminate
  | escape =>
    rw [perform_escape]
    split
    · exact p.shifts_terminate
    · exact .still rfl rfl
  | transport e =>
    cases e with
    | connected => exact .still rfl rfl
    | frame epoch f =>
      rw [perform_frame]
      split
      · have phase : (p.took f).phase = p.phase := congrArg Stance.phase (p.stance_took f)
        have clock : (p.took f).clock = p.clock := congrArg Stance.clock (p.stance_took f)
        exact ((p.took f).shifts_maybeStart p.now).behind phase clock
      · exact .still rfl rfl
    | disconnected epoch reason =>
      rw [perform_disconnected]
      split <;> exact .still rfl rfl

/-! ## What follows from it -/

/-- Phase and clock fit together. -/
def InStep (p : Peer) : Prop := p.phase.Fits p.clock

theorem Shifts.inStep (h : p.Shifts q) (before : p.InStep) : q.InStep := by
  unfold InStep at *
  cases h with
  | still phase clock =>
    rw [phase, clock]
    exact before
  | starts waiting seed phase clock =>
    rw [phase, clock]
    exact ⟨rfl, rfl⟩
  | pauses running time phase clock =>
    rw [running] at before
    have started : (p.clock.syncTo time).started = true := by
      unfold SessionClock.syncTo
      split <;> exact before.1
    rw [phase, clock]
    exact ⟨started, rfl⟩
  | resumes paused time phase clock =>
    rw [paused] at before
    have started : (p.clock.syncTo time).started = true := by
      unfold SessionClock.syncTo
      split <;> exact before.1
    rw [phase, clock]
    exact ⟨started, rfl⟩
  | ends on isOver clock =>
    rw [clock]
    unfold isFinished at isOver
    cases phase : q.phase with
    | ended | aborted => rfl
    | waiting | running | paused =>
      rw [phase] at isOver
      cases isOver

/-- The phase stays or goes on along an edge, and time does not go back. -/
def Moves (p q : Peer) : Prop := (q.phase = p.phase ∨ p.phase.Leads q.phase) ∧ p.now ≤ q.now

/-- **Where phase and clock fit together**, the peer goes on as it may. -/
theorem Shifts.moves (h : p.Shifts q) (before : p.InStep) : p.Moves q := by
  cases h with
  | still phase clock => exact ⟨Or.inl phase, by rw [now, now, clock]; exact UInt64.le_refl _⟩
  | starts waiting seed phase clock =>
    -- The clock of a waiting session is at zero, so that no start takes it back.
    unfold InStep at before
    rw [waiting] at before
    have zero : p.clock = .new := before
    refine ⟨Or.inr (by rw [waiting, phase]; exact .start), ?_⟩
    rw [now, now, clock, zero]
    exact UInt64.zero_le
  | pauses running time phase clock =>
    refine ⟨Or.inr (by rw [running, phase]; exact .pause), ?_⟩
    rw [now, now, clock]
    exact p.clock.le_syncTo time
  | resumes paused time phase clock =>
    refine ⟨Or.inr (by rw [paused, phase]; exact .resume), ?_⟩
    rw [now, now, clock]
    exact p.clock.le_syncTo time
  | ends on isOver clock =>
    refine ⟨Or.inr (.finish on isOver), ?_⟩
    rw [now, now, clock]
    exact UInt64.le_refl _

/-- A session that waits has waited before. -/
theorem Shifts.waited (h : p.Shifts q) (waiting : q.phase = .waiting) : p.phase = .waiting := by
  cases h with
  | still phase => exact phase.symm.trans waiting
  | starts _ _ phase | pauses _ _ phase | resumes _ _ phase => cases phase.symm.trans waiting
  | ends on isOver =>
    rw [isFinished, waiting] at isOver
    cases isOver

/-! ## Commands of a waiting session -/

theorem tally_reconcile (p : Peer) (m : SyncMessage) : (p.reconcile m).tally = p.tally := by
  unfold reconcile
  cases m.writeTime? with
  | none | some time =>
    dsimp only
    split
    · rfl
    · rfl
    · rfl
    · rfl
    · exact (settles_onControl _ _).files.tally

theorem tally_applyInput (p : Peer) (payload : InputPayload) (now : SessionTime) :
    (p.applyInput payload now).tally = p.tally :=
  List.foldlRecOn (motive := fun q : Peer => q.tally = p.tally) _ _ rfl fun q same m _ =>
    (q.settles_send m now).files.tally.trans same

theorem tally_applyLocalInputs (p : Peer) (now : SessionTime) : (p.applyLocalInputs now).tally = p.tally := by
  unfold applyLocalInputs
  dsimp only
  split
  · rfl
  · exact List.foldlRecOn (motive := fun q : Peer => q.tally = p.tally) _ _ rfl fun q same payload _ =>
      (q.tally_applyInput payload now).trans same

end Peer

/-- While the session waits the script is whole: no command has been handed out, and none has been run. -/
def Moment.Unscripted (commands : List ScenarioCommand) (a : Moment) : Prop :=
  a.peer.phase = .waiting → a.due = [] ∧ a.peer.queue = .load commands ∧ a.peer.tally = (0, 0)

/-- Only a command is counted as one. -/
theorem Deed.tally {cause : Cause} {a b : Moment} (h : Deed cause a b) :
    cause = .command ∨ b.peer.tally = a.peer.tally := by
  cases h with
  | @heeds p m rest => exact Or.inr (Peer.tally_reconcile { p with held := rest } m)
  | attends p now => exact Or.inr (p.tally_applyLocalInputs now)
  | withholds | handsOut | flushes => exact Or.inr rfl
  | runs => exact Or.inl rfl
  | expires p now =>
    refine Or.inr ?_
    dsimp only
    unfold Peer.expireRounds
    split <;> rfl
  | ticks p now => exact Or.inr (p.settles_runLinkTimers now).files.tally

/-- **A session that waits runs no command.** -/
theorem Deed.unscripted {cause : Cause} {a b : Moment} {commands : List ScenarioCommand} (h : Deed cause a b)
    (before : a.Unscripted commands) : b.Unscripted commands := by
  intro waiting
  have waited := h.shifts.waited waiting
  obtain ⟨nothing, queue, tally⟩ := before waited
  have noCommand : cause ≠ .command := by
    rintro rfl
    cases h with
    | runs => exact absurd nothing (List.cons_ne_nil _ _)
  rcases h.keeps with ⟨keeps, isCommand | ⟨-, due⟩⟩ | ⟨-, running, -⟩
  · exact absurd isCommand noCommand
  · refine ⟨due, ?_, ?_⟩
    · exact (keeps.queue_eq waiting rfl).trans queue
    · exact (h.tally.resolve_left noCommand).trans tally
  · cases running.symm.trans waiting

/-! ## Chains of moments -/

namespace Path

variable {a b : Moment} {l : List (Cause × Peer)}

/-- A path ends at the last of its peers. -/
theorem getLast? (h : Path a l b) (notEmpty : l ≠ []) : (l.map Prod.snd).getLast? = some b.peer := by
  induction h with
  | nil => exact absurd rfl notEmpty
  | @cons _ _ _ _ l deed rest ih =>
    cases l with
    | nil =>
      cases rest
      rfl
    | cons => exact ih (List.cons_ne_nil _ _)

/-- The peers along a path go on as they may. -/
theorem moves (h : Path a l b) (before : a.peer.InStep) : List.IsChain Peer.Moves (a.peer :: l.map Prod.snd) := by
  induction h with
  | nil => exact .singleton _
  | cons deed _ ih =>
    exact List.isChain_cons_cons.mpr ⟨deed.shifts.moves before, ih (deed.shifts.inStep before)⟩

end Path

namespace Peer

variable {p : Peer} {commands : List ScenarioCommand}

/-- Letting time pass keeps phase and clock together. -/
theorem InStep.advanced (h : p.InStep) (dt : Duration) : (p.advanced dt).InStep := by
  show p.phase.Fits (p.clock.advance dt)
  unfold InStep at h
  cases phase : p.phase with
  | waiting =>
    rw [phase] at h
    rw [show p.clock = .new from h]
    rfl
  | running | paused | ended | aborted =>
    rw [phase] at h
    unfold SessionClock.advance
    split <;> exact h

/-- What is carried from one action to the next. -/
structure Orderly (commands : List ScenarioCommand) (p : Peer) : Prop where
  inStep : p.InStep
  unscripted : Moment.Unscripted commands ⟨p, []⟩
  concluded : p.Concluded

theorem orderly_new (config : PeerConfig) (commands : List ScenarioCommand) :
    (Peer.new config commands).Orderly commands :=
  ⟨rfl, fun _ => ⟨rfl, rfl, rfl⟩, .of_phase (p := Peer.new config commands) rfl rfl⟩

theorem Orderly.perform (h : p.Orderly commands) (action : PeerAction) : (p.perform action).Orderly commands := by
  rcases action.step_cases with ⟨dt, rfl⟩ | notStep
  · have received : (p.advanced dt).received.InStep := h.inStep.advanced dt
    have fresh : Moment.Unscripted commands ⟨(p.advanced dt).received, []⟩ := h.unscripted
    refine ⟨?_, step_keeps Deed.unscripted fresh, h.concluded.perform _⟩
    exact step_keeps (P := fun a => a.peer.InStep) (fun deed => deed.shifts.inStep) received
  · have shifts := p.shifts_perform notStep
    refine ⟨shifts.inStep h.inStep, fun waiting => ?_, h.concluded.perform action⟩
    obtain ⟨-, queue, tally⟩ := h.unscripted (shifts.waited waiting)
    exact ⟨rfl, ((p.keeps_perform notStep).queue_eq waiting rfl).trans queue, (p.settles_perform notStep).files.tally.trans tally⟩

/-- The peers that an action goes through, and their end. -/
theorem moves_moments (h : p.InStep) (action : PeerAction) :
    List.IsChain Moves (p :: (p.moments action).map Prod.snd) ∧
      ((p.moments action).map Prod.snd).getLast? = some (p.perform action) := by
  rcases action.step_cases with ⟨dt, rfl⟩ | notStep
  · have path := (p.advanced dt).path_stages
    have chain := path.moves (h.advanced dt)
    have later : ∀ {q : Peer}, (p.advanced dt).received.Moves q → p.Moves q := fun moves =>
      ⟨moves.1, UInt64.le_trans (p.clock.le_advance dt) moves.2⟩
    refine ⟨chain.imp_head later, ?_⟩
    rw [perform_step]
    exact path.getLast? (List.append_ne_nil_of_right_ne_nil _ (List.cons_ne_nil _ _))
  · rw [p.moments_of_notStep notStep]
    exact ⟨.cons_cons ((p.shifts_perform notStep).moves h) (.singleton _), rfl⟩

/-- What holds of phase, clock, queue and link between two actions. -/
structure Consistent (commands : List ScenarioCommand) (p : Peer) : Prop where
  /-- The clock is at zero and the script is whole. -/
  waiting : p.phase = .waiting → p.clock = .new ∧ p.queue = .load commands ∧ p.stats.commandsDispatched = 0 ∧
    p.stats.commandsSkipped = 0
  running : p.phase = .running ↔ p.clock.started = true ∧ p.clock.paused = false
  paused : p.phase = .paused ↔ p.clock.started = true ∧ p.clock.paused = true
  finished : p.isFinished = true → p.clock.started = false ∧ p.queue.pending = [] ∧ p.held = [] ∧
    p.link.state = .closed

theorem Orderly.consistent (h : p.Orderly commands) : p.Consistent commands where
  waiting phase := by
    obtain ⟨-, queue, tally⟩ := h.unscripted phase
    have fits := h.inStep
    rw [InStep, phase] at fits
    exact ⟨fits, queue, congrArg Prod.fst tally, congrArg Prod.snd tally⟩
  running := h.inStep.running_iff
  paused := h.inStep.paused_iff
  finished isOver := by
    have rest := h.concluded isOver
    exact ⟨h.inStep.stopped isOver, rest.pending, rest.held, rest.link.state⟩

/-- **Phase, clock, queue and link agree** in every state that a run reaches.  From there, whatever is done, the peer
goes through phases along the edges only, with a session time that does not decrease. -/
theorem consistent_performAll (config : PeerConfig) (commands : List ScenarioCommand) (actions : List PeerAction) :
    let p := (Peer.new config commands).performAll actions
    p.Consistent commands ∧ ∀ action, List.IsChain Moves (p :: (p.moments action).map Prod.snd) ∧
      ((p.moments action).map Prod.snd).getLast? = some (p.perform action) := by
  have orderly := performAll_keeps Orderly.perform actions (orderly_new config commands)
  exact ⟨orderly.consistent, moves_moments orderly.inStep⟩

end Peer

end Tandem
