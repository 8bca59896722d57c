import Tandem.Peer.Step
/-!
# Runs of a peer

A peer is driven from outside: durations pass, inputs are submitted, the operator steers the session and the
connection has its events.  `PeerAction` lists everything that can be done to a peer, and a run is a list of
those.

The other subject of this module is the queue of pending commands.  Only the dispatch of a step takes commands
from it, and only the end of the session drops them: `Peer.Keeps` says of a change that it does neither, or that
it ends the session, and there is one lemma for each thing a peer does.  What follows for whole runs is that the
pending commands always stand in the order of their due times.
-/

namespace Tandem

/-- What can be done to a peer. -/
inductive PeerAction where
  | step (dt : Duration)
  | submit (payload : InputPayload)
  | pause
  | resume
  | terminate
  | escape
  | transport (e : TransportEvent)
  | pollTransmit
  | requeueOutbound
  | drainNotifications

theorem PeerAction.step_cases (action : PeerAction) : (∃ dt, action = .step dt) ∨ ∀ dt, action ≠ .step dt := by
  cases action with
  | step dt => exact Or.inl ⟨dt, rfl⟩
  | submit | pause | resume | terminate | escape | transport | pollTransmit | requeueOutbound | drainNotifications =>
    exact Or.inr nofun

namespace Peer

/-- The peer after an action. -/
def perform (p : Peer) : PeerAction → Peer
  | .step dt => (p.step dt).2
  | .submit payload => p.submitInput payload
  | .pause => p.pause
  | .resume => p.resume
  | .terminate => p.terminate
  | .escape => p.escape.2
  | .transport e => p.onTransport e
  | .pollTransmit => p.pollTransmit.2
  | .requeueOutbound => p.requeueOutbound
  | .drainNotifications => p.drainNotifications.2

/-- The peer after a run. -/
def performAll (p : Peer) (actions : List PeerAction) : Peer := actions.foldl perform p

theorem performAll_concat (p : Peer) (actions : List PeerAction) (action : PeerAction) :
    p.performAll (actions ++ [action]) = (p.performAll actions).perform action := List.foldl_append

/-- What every action keeps is kept in a run. -/
theorem performAll_keeps {P : Peer → Prop} (each : ∀ {p : Peer}, P p → ∀ action, P (p.perform action))
    (actions : List PeerAction) {p : Peer} (before : P p) : P (p.performAll actions) := by
  induction actions generalizing p with
  | nil => exact before
  | cons action rest ih => exact ih (each before action)

/-- Leaving early ends the session, if the operator may. -/
theorem perform_escape (p : Peer) : p.perform .escape = if p.options.allowEscape then p.terminate else p := by
  show p.escape.2 = _
  unfold escape
  split <;> rfl

/-- The link is told that the current connection is lost. -/
theorem perform_disconnected (p : Peer) (epoch : UInt64) (reason : String) :
    p.perform (.transport (.disconnected epoch reason)) =
      if p.epoch = some epoch then { p with epoch := none, link := p.link.onDisconnected p.now } else p :=
  rfl

/-! ## The stages of a step -/

/-- The peer when a duration has passed on its clock. -/
def advanced (p : Peer) (dt : Duration) : Peer := { p with clock := p.clock.advance dt }

theorem perform_step (p : Peer) (dt : Duration) : p.perform (.step dt) = (p.advanced dt).run := by
  simp only [perform, step, advanced]

/-- The peer when the messages of the link have been fetched. -/
def received (p : Peer) : Peer := (p.count (fun s => { s with ticks := s.ticks + 1 })).ingest

/-- The peer after the first stage, whose time the later stages share. -/
def heard (p : Peer) : Peer := p.received.releaseHeld

/-- The peer when the first `n` of the inputs that wait have been applied. -/
def appliedOwn (p : Peer) (n : Nat) : Peer :=
  (p.heard.pendingInputs.toList.take n).foldl (fun q payload => q.applyInput payload p.heard.now)
    { p.heard with pendingInputs := .empty }

/-- The peer when the scenario commands that have come due have been run. -/
def dispatched (p : Peer) : Peer := (p.heard.applyLocalInputs p.heard.now).dispatchScenario p.heard.now

theorem run_eq (p : Peer) : p.run =
    (((p.dispatched.releaseHeld.expireRounds p.heard.now).runLinkTimers p.heard.now).flushLog p.heard.now) :=
  rfl

/-! ## What keeps the queue -/

/-- The queue is kept, or the session has ended and nothing is pending any more. -/
def Keeps (p p' : Peer) : Prop :=
  (p'.queue = p.queue ∧ (p.isFinished = true → p'.isFinished = true)) ∨
    (p'.queue.pending = [] ∧ p'.isFinished = true)

namespace Keeps

theorem refl (p : Peer) : p.Keeps p := Or.inl ⟨rfl, id⟩

/-- A change that touches neither the queue nor the phase. -/
theorem of_eq {p p' : Peer} (queue : p'.queue = p.queue) (phase : p'.phase = p.phase) : p.Keeps p' :=
  Or.inl ⟨queue, fun finished => by rwa [isFinished, phase]⟩

/-- A change of a session that is not over. -/
theorem of_on {p p' : Peer} {phase : PeerPhase} (queue : p'.queue = p.queue) (here : p.phase = phase)
    (on : phase.isFinished = false) : p.Keeps p' :=
  Or.inl ⟨queue, fun finished => by rw [isFinished, here, on] at finished; exact absurd finished Bool.false_ne_true⟩

theorem trans {p q r : Peer} (first : p.Keeps q) (second : q.Keeps r) : p.Keeps r := by
  rcases second with ⟨queue, finished⟩ | ended
  · rcases first with ⟨queue', finished'⟩ | ⟨empty, ended⟩
    · exact Or.inl ⟨queue.trans queue', fun h => finished (finished' h)⟩
    · exact Or.inr ⟨by rw [queue, empty], finished ended⟩
  · exact Or.inr ended

/-- A session that is over stays so. -/
theorem finished {p p' : Peer} (h : p.Keeps p') (ended : p.isFinished = true) : p'.isFinished = true := by
  rcases h with ⟨-, stays⟩ | ⟨-, isOver⟩
  · exact stays ended
  · exact isOver

/-- As long as the session is not over, the queue is the same. -/
theorem queue_eq {p p' : Peer} {phase : PeerPhase} (h : p.Keeps p') (here : p'.phase = phase)
    (on : phase.isFinished = false) : p'.queue = p.queue := by
  rcases h with ⟨queue, -⟩ | ⟨-, ended⟩
  · exact queue
  · rw [isFinished, here, on] at ended
    cases ended

/-- A list of changes keeps the queue if each of them does. -/
theorem foldl {α : Type} {f : Peer → α → Peer} (each : ∀ p a, Keeps p (f p a)) (l : List α) (p : Peer) :
    p.Keeps (l.foldl f p) := by
  induction l generalizing p with
  | nil => exact refl p
  | cons a rest ih => exact (each p a).trans (ih (f p a))

end Keeps

theorem keeps_send (p : Peer) (m : SyncMessage) (now : SessionTime) : p.Keeps (p.send m now) := by
  unfold send
  split <;> exact .of_eq rfl rfl

theorem keeps_conclude (p : Peer) (now : SessionTime) : p.Keeps (p.conclude now) := Or.inr ⟨rfl, rfl⟩

theorem keeps_pause (p : Peer) : p.Keeps p.pause := by
  unfold pause
  by_cases running : p.phase = .running
  · rw [if_neg (not_not_intro running)]
    have held : p.Keeps { p with clock := p.clock.pause, phase := .paused } := .of_on rfl running rfl
    exact held.trans (keeps_send _ _ _)
  · rw [if_pos running]
    exact .refl p

theorem keeps_resume (p : Peer) : p.Keeps p.resume := by
  unfold resume
  by_cases paused : p.phase = .paused
  · rw [if_neg (not_not_intro paused)]
    have released : p.Keeps { p with clock := p.clock.resume, phase := .running } := .of_on rfl paused rfl
    exact released.trans (keeps_send _ _ _)
  · rw [if_pos paused]
    exact .refl p

theorem keeps_terminate (p : Peer) : p.Keeps p.terminate := by
  unfold terminate
  split
  · exact .refl p
  · exact Or.inr ⟨rfl, rfl⟩

theorem keeps_escape (p : Peer) : p.Keeps p.escape.2 := by
  unfold escape
  split
  · exact keeps_terminate p
  · exact .refl p

theorem keeps_maybeStart (p : Peer) (now : SessionTime) : p.Keeps (p.maybeStart now) := by
  unfold maybeStart
  by_cases idle : p.config.role ≠ .host ∨ p.phase ≠ .waiting ∨ p.link.state ≠ .established
  · rw [if_pos idle]
    exact .refl p
  · rw [if_neg idle]
    have waiting : p.phase = .waiting := Decidable.of_not_not fun h => idle (Or.inr (Or.inl h))
    have started : p.Keeps { p with clock := p.clock.startAt now, phase := .running } :=
      .of_on rfl waiting rfl
    exact started.trans (keeps_send _ _ _)

theorem keeps_onTransport (p : Peer) (e : TransportEvent) : p.Keeps (p.onTransport e) := by
  cases e with
  | connected => exact .of_eq rfl rfl
  | frame epoch f =>
    unfold onTransport
    dsimp only
    split
    · unfold onFrame
      refine Keeps.trans (.of_eq ?_ ?_) (keeps_maybeStart _ _)
      all_goals split <;> rfl
    · exact .of_eq rfl rfl
  | disconnected epoch =>
    unfold onTransport
    dsimp only
    split
    · exact .of_eq rfl rfl
    · exact .refl p

/-! ## Messages of the other peer and local input -/

theorem keeps_onControl (p : Peer) (m : SyncMessage) : p.Keeps (p.onControl m) := by
  cases m with
  | start seed =>
    dsimp only [onControl, onStart]
    by_cases waiting : (p.noteRemoteTime seed).phase = .waiting
    · exact .of_on (by split <;> rfl) waiting rfl
    · rw [if_neg waiting]
      exact .of_eq rfl rfl
  | pause time =>
    dsimp only [onControl, onPause]
    by_cases running : (p.noteRemoteTime time).phase = .running
    · exact .of_on (by split <;> rfl) running rfl
    · rw [if_neg running]
      exact .of_eq rfl rfl
  | resume time =>
    dsimp only [onControl, onResume]
    by_cases paused : (p.noteRemoteTime time).phase = .paused
    · exact .of_on (by split <;> rfl) paused rfl
    · rw [if_neg paused]
      exact .of_eq rfl rfl
  | finish =>
    dsimp only [onControl]
    split
    · exact .refl p
    · exact keeps_conclude p p.now
  | delta | forward | heartbeat | hello => exact .refl p

/-- Reconciling a message touches neither queue nor phase, unless it is a message that steers the session. -/
theorem reconcile_cases (p : Peer) (m : SyncMessage) : ∃ q : Peer,
    (p.reconcile m = q ∨ ∃ m', p.reconcile m = q.onControl m') ∧ q.queue = p.queue ∧ q.phase = p.phase := by
  unfold reconcile
  cases m.writeTime? with
  | none | some time =>
    dsimp only
    split
    · exact ⟨_, Or.inl rfl, rfl, rfl⟩
    · exact ⟨_, Or.inl rfl, rfl, rfl⟩
    · exact ⟨_, Or.inl rfl, rfl, rfl⟩
    · exact ⟨_, Or.inl rfl, rfl, rfl⟩
    · exact ⟨_, Or.inr ⟨_, rfl⟩, rfl, rfl⟩

theorem keeps_reconcile (p : Peer) (m : SyncMessage) : p.Keeps (p.reconcile m) := by
  obtain ⟨q, done | ⟨m', steered⟩, queue, phase⟩ := reconcile_cases p m
  · rw [done]
    exact .of_eq queue phase
  · rw [steered]
    exact (Keeps.of_eq queue phase).trans (keeps_onControl q m')

theorem keeps_releaseUpTo (limit : Nat) (p : Peer) : p.Keeps (releaseUpTo limit p) := by
  induction limit generalizing p with
  | zero => exact .refl p
  | succ limit ih =>
    unfold releaseUpTo
    cases p.held with
    | nil => exact .refl p
    | cons m rest =>
      have taken : p.Keeps { p with held := rest } := .of_eq rfl rfl
      dsimp only
      split
      · exact .refl p
      · exact (taken.trans (keeps_reconcile _ m)).trans (ih _)

theorem keeps_releaseHeld (p : Peer) : p.Keeps p.releaseHeld := keeps_releaseUpTo p.held.length p

theorem keeps_applyInput (p : Peer) (payload : InputPayload) (now : SessionTime) :
    p.Keeps (p.applyInput payload now) := by
  unfold applyInput
  exact .trans (.of_eq rfl rfl) (.foldl (fun q m => keeps_send q m now) _ _)

theorem keeps_applyLocalInputs (p : Peer) (now : SessionTime) : p.Keeps (p.applyLocalInputs now) := by
  unfold applyLocalInputs
  dsimp only
  split
  · exact .of_eq rfl rfl
  · exact .trans (.of_eq rfl rfl) (.foldl (fun q payload => keeps_applyInput q payload now) _ _)

/-! ## The other stages -/

theorem keeps_onSessionCommand (p : Peer) (c : SessionCommand) (now : SessionTime) :
    p.Keeps (p.onSessionCommand c now) := by
  cases c with
  | finish => exact keeps_terminate p
  | pause => exact keeps_pause p
  | resume => exact keeps_resume p
  | log | showLabels | allowEscape | allowAltF4 => exact .of_eq rfl rfl

theorem keeps_runCommand (p : Peer) (c : ScenarioCommand) (now : SessionTime) :
    p.Keeps (p.runCommand c now) := by
  unfold runCommand
  dsimp only
  split
  · exact .of_eq rfl rfl
  · exact .trans (.of_eq rfl rfl) (keeps_onSessionCommand _ _ now)
  · exact .of_eq rfl rfl

theorem keeps_runCommands (commands : List ScenarioCommand) (p : Peer) (now : SessionTime) :
    p.Keeps (p.runCommands now commands) := by
  induction commands generalizing p with
  | nil => exact .refl p
  | cons c rest ih =>
    unfold runCommands
    dsimp only
    split
    · exact keeps_runCommand p c now
    · exact (keeps_runCommand p c now).trans (ih _)

theorem keeps_expireRounds (p : Peer) (now : SessionTime) : p.Keeps (p.expireRounds now) := by
  unfold expireRounds
  split
  · exact .refl p
  · exact .of_eq rfl rfl

theorem keeps_runLinkTimers (p : Peer) (now : SessionTime) : p.Keeps (p.runLinkTimers now) := by
  unfold runLinkTimers
  split
  · exact .of_eq rfl rfl
  · dsimp only
    split
    · exact .of_eq rfl rfl
    · exact Or.inr ⟨rfl, rfl⟩
  · exact .of_eq rfl rfl

theorem keeps_flushLog (p : Peer) (now : SessionTime) : p.Keeps (p.flushLog now) := .of_eq rfl rfl

/-! ## The pending commands -/

/-- The pending commands are some of those at the end of what was pending before. -/
def Shortens (p p' : Peer) : Prop := p'.queue.pending <:+ p.queue.pending

theorem Keeps.shortens {p p' : Peer} (h : p.Keeps p') : p.Shortens p' := by
  show p'.queue.pending <:+ p.queue.pending
  rcases h with ⟨queue, -⟩ | ⟨empty, -⟩
  · exact queue ▸ List.suffix_refl p'.queue.pending
  · exact empty ▸ List.nil_suffix

theorem Shortens.trans {p q r : Peer} (first : p.Shortens q) (second : q.Shortens r) : p.Shortens r :=
  List.IsSuffix.trans second first

theorem shortens_dispatchScenario (p : Peer) (now : SessionTime) : p.Shortens (p.dispatchScenario now) := by
  unfold dispatchScenario
  split
  · exact (Keeps.refl p).shortens
  · split
    · exact (Keeps.of_eq rfl rfl).shortens
    · have handedOut : p.Shortens { p with queue := (p.queue.advance now.wholeSeconds).2 } :=
        List.dropWhile_suffix _
      exact handedOut.trans (keeps_runCommands _ _ now).shortens

theorem keeps_heard (p : Peer) : p.Keeps p.heard :=
  .trans (.of_eq rfl rfl) (keeps_releaseHeld p.received)

theorem shortens_dispatched (p : Peer) : p.Shortens p.dispatched := by
  have started := (keeps_heard p).trans (keeps_applyLocalInputs p.heard p.heard.now)
  exact started.shortens.trans (shortens_dispatchScenario _ p.heard.now)

theorem shortens_run (p : Peer) : p.Shortens p.run := by
  have released := keeps_releaseHeld p.dispatched
  have expired := released.trans (keeps_expireRounds _ p.heard.now)
  have timed := expired.trans (keeps_runLinkTimers _ p.heard.now)
  rw [run_eq]
  exact (shortens_dispatched p).trans (timed.trans (keeps_flushLog _ p.heard.now)).shortens

/-- Only a step runs commands. -/
theorem keeps_perform (p : Peer) {action : PeerAction} (notStep : ∀ dt, action ≠ .step dt) :
    p.Keeps (p.perform action) := by
  cases action with
  | step dt => exact absurd rfl (notStep dt)
  | submit | pollTransmit | requeueOutbound | drainNotifications => exact .of_eq rfl rfl
  | pause => exact keeps_pause p
  | resume => exact keeps_resume p
  | terminate => exact keeps_terminate p
  | escape => exact keeps_escape p
  | transport e => exact keeps_onTransport p e

theorem shortens_perform (p : Peer) (action : PeerAction) : p.Shortens (p.perform action) := by
  rcases action.step_cases with ⟨dt, rfl⟩ | notStep
  · have moved : p.Keeps (p.advanced dt) := .of_eq rfl rfl
    rw [perform_step]
    exact moved.shortens.trans (shortens_run (p.advanced dt))
  · exact (keeps_perform p notStep).shortens

theorem shortens_performAll (actions : List PeerAction) (p : Peer) : p.Shortens (p.performAll actions) := by
  induction actions generalizing p with
  | nil => exact (Keeps.refl p).shortens
  | cons action rest ih => exact (shortens_perform p action).trans (ih _)

/-- Pending commands stand in the order of their due times. -/
def InOrder (p : Peer) : Prop := p.queue.pending.Pairwise (fun a b => a.dueSecond ≤ b.dueSecond)

theorem Shortens.inOrder {p p' : Peer} (h : p.Shortens p') (before : p.InOrder) : p'.InOrder :=
  List.Pairwise.sublist h.sublist before

theorem inOrder_new (config : PeerConfig) (commands : List ScenarioCommand) :
    (Peer.new config commands).InOrder := by
  have sorted := List.pairwise_mergeSort ScenarioCommand.precedes_trans ScenarioCommand.precedes_total commands
  refine List.Pairwise.imp ?_ sorted
  intro a b precedes
  simp only [ScenarioCommand.precedes, decide_eq_true_eq] at precedes
  omega

/-- A script that is in order is queued as it is. -/
theorem new_of_sorted (config : PeerConfig) {script : List ScenarioCommand}
    (sorted : script.Pairwise (fun a b => a.precedes b = true)) :
    Peer.new config script = { Peer.new config [] with queue := ⟨script, 0, false⟩ } := by
  rw [Peer.new, CommandQueue.load_of_sorted sorted]
  rfl

/-- Along every run the pending commands stay in order. -/
theorem inOrder_performAll (config : PeerConfig) (commands : List ScenarioCommand)
    (actions : List PeerAction) : ((Peer.new config commands).performAll actions).InOrder :=
  (shortens_performAll actions _).inOrder (inOrder_new config commands)

end Peer

end Tandem
