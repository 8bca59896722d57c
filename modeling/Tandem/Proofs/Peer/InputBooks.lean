import Tandem.Proofs.Peer.Finished
/-!
# What becomes of the inputs

An input that is submitted waits for the next step.  There it is handed to the reconciler, or it is counted as dropped
because the session is not running.  `InputBooks` has what has been submitted beside what has become of it, and the
books are in order if the two agree.

A session that ends throws away what waits, and does not count it.  So `Peer.Clears` says of a change that it leaves the
books as they are, or that it ends the session and nothing waits any more; there is one lemma for each thing a peer
does.  The second stage of a step leaves nothing to wait, so an end after it does no harm.  What is thrown away is what
waits when the session ends between two steps, or in the first stage of one (`Peer.Discards`).  The books of a run then
miss exactly those inputs (`Peer.submitted_performAll`), and they are in order exactly if there are none
(`Peer.inputsAccounted_iff`).
-/

namespace Tandem

/-- What has been submitted to a peer, and what has become of it. -/
structure InputBooks where
  submitted : Nat
  /-- Handed to the reconciler. -/
  applied : Nat
  dropped : Nat
  waiting : Nat
deriving DecidableEq

namespace InputBooks

/-- The inputs of which something is known. -/
def known (b : InputBooks) : Nat := b.applied + b.dropped + b.waiting

/-- What waits is thrown away. -/
def cleared (b : InputBooks) : InputBooks := { b with waiting := 0 }

theorem cleared_of_none {b : InputBooks} (none : b.waiting = 0) : b.cleared = b := by
  rw [cleared, ← none]

/-- Of some inputs that were submitted nothing is known. -/
def Misses (b : InputBooks) (n : Nat) : Prop := b.submitted = b.known + n

theorem Misses.cleared {b : InputBooks} {n : Nat} (h : b.Misses n) : b.cleared.Misses (n + b.waiting) := by
  have same : b.submitted = b.applied + b.dropped + b.waiting + n := h
  show b.submitted = b.applied + b.dropped + 0 + (n + b.waiting)
  omega

end InputBooks

/-! ## The reconciler counts local inputs only -/

namespace Reconciler

theorem localInputs_onRemoteInput (r : Reconciler) (b : Battery) (sender : ParticipantId) (e : InputEvent)
    (stamp : Stamp) : (r.onRemoteInput b sender e stamp).1.stats.localInputs = r.stats.localInputs := by
  unfold onRemoteInput
  split
  · rfl
  · split
    · rfl
    · dsimp only
      split <;> rfl

theorem stats_observed (r : Reconciler) (changes : List FieldChange) :
    (changes.foldl (fun r c => r.observe c.stamp) r).stats = r.stats := by
  induction changes generalizing r with
  | nil => rfl
  | cons c rest ih => exact ih (r.observe c.stamp)

theorem localInputs_onDelta (r : Reconciler) (b : Battery) (sender : ParticipantId) (t : TaskId)
    (changes : List FieldChange) : (r.onDelta b sender t changes).1.stats.localInputs = r.stats.localInputs := by
  have observed : (changes.foldl (fun r c => r.observe c.stamp) r).stats.localInputs = r.stats.localInputs := by
    rw [stats_observed]
  exact observed

theorem localInputs_onRemoteMessage (r : Reconciler) (b : Battery) (sender : ParticipantId) (m : SyncMessage) :
    (r.onRemoteMessage b sender m).1.stats.localInputs = r.stats.localInputs := by
  unfold onRemoteMessage
  split
  · rfl
  · cases m with
    | forward e stamp => exact localInputs_onRemoteInput r b sender e stamp
    | delta t changes => exact localInputs_onDelta r b sender t changes
    | start | pause | resume | finish | heartbeat | hello => rfl

/-- A local input is counted, whatever comes of it. -/
theorem localInputs_onLocalInput (r : Reconciler) (b : Battery) (e : InputEvent) (now : SessionTime) :
    (r.onLocalInput b e now).1.stats.localInputs = r.stats.localInputs + 1 := by
  unfold onLocalInput
  dsimp only
  split
  · rfl
  · split
    · rfl
    · split <;> rfl

end Reconciler

namespace Peer

/-- The books of a peer. -/
def inputBooks (p : Peer) : InputBooks :=
  ⟨p.stats.inputsSubmitted, p.reconciler.stats.localInputs, p.stats.inputsDropped, p.pendingInputs.toList.length⟩

/-! ## What leaves the books as they are -/

/-- The books are left as they are, and the session goes on as before. -/
structure Retains (p q : Peer) : Prop where
  books : q.inputBooks = p.inputBooks
  isFinished : q.isFinished = p.isFinished

namespace Retains

theorem refl (p : Peer) : p.Retains p := ⟨rfl, rfl⟩

theorem trans {p q r : Peer} (first : p.Retains q) (second : q.Retains r) : p.Retains r :=
  ⟨second.books.trans first.books, second.isFinished.trans first.isFinished⟩

/-- A change of a session that is not over, after which it is not over either. -/
theorem of_on {p q : Peer} {phase phase' : PeerPhase} (books : q.inputBooks = p.inputBooks) (here : p.phase = phase)
    (on : phase.isFinished = false) (there : q.phase = phase') (on' : phase'.isFinished = false) : p.Retains q :=
  ⟨books, by rw [Peer.isFinished, Peer.isFinished, here, there, on, on']⟩

end Retains

@[simp] theorem inputBooks_send (p : Peer) (m : SyncMessage) (now : SessionTime) :
    (p.send m now).inputBooks = p.inputBooks := by
  unfold send
  split <;> rfl

theorem retains_send (p : Peer) (m : SyncMessage) (now : SessionTime) : p.Retains (p.send m now) :=
  ⟨inputBooks_send p m now, congrArg PeerPhase.isFinished (phase_send p m now)⟩

theorem retains_pause (p : Peer) : p.Retains p.pause := by
  unfold pause
  by_cases running : p.phase = .running
  · rw [if_neg (not_not_intro running)]
    have held : p.Retains { p with clock := p.clock.pause, phase := .paused } := .of_on rfl running rfl rfl rfl
    exact held.trans (retains_send _ _ _)
  · rw [if_pos running]
    exact .refl p

theorem retains_resume (p : Peer) : p.Retains p.resume := by
  unfold resume
  by_cases paused : p.phase = .paused
  · rw [if_neg (not_not_intro paused)]
    have released : p.Retains { p with clock := p.clock.resume, phase := .running } := .of_on rfl paused rfl rfl rfl
    exact released.trans (retains_send _ _ _)
  · rw [if_pos paused]
    exact .refl p

theorem retains_maybeStart (p : Peer) (now : SessionTime) : p.Retains (p.maybeStart now) := by
  unfold maybeStart
  by_cases idle : p.config.role ≠ .host ∨ p.phase ≠ .waiting ∨ p.link.state ≠ .established
  · rw [if_pos idle]
    exact .refl p
  · rw [if_neg idle]
    have waiting : p.phase = .waiting := Decidable.of_not_not fun h => idle (Or.inr (Or.inl h))
    have started : p.Retains { p with clock := p.clock.startAt now, phase := .running } :=
      .of_on rfl waiting rfl rfl rfl
    exact started.trans (retains_send _ _ _)

theorem retains_onTransport (p : Peer) (e : TransportEvent) : p.Retains (p.onTransport e) := by
  cases e with
  | connected => exact ⟨rfl, rfl⟩
  | frame epoch f =>
    unfold onTransport
    dsimp only
    split
    · unfold onFrame
      refine Retains.trans ⟨?_, ?_⟩ (retains_maybeStart _ _)
      all_goals split <;> rfl
    · exact ⟨rfl, rfl⟩
  | disconnected epoch =>
    unfold onTransport
    dsimp only
    split
    · exact ⟨rfl, rfl⟩
    · exact .refl p

theorem retains_expireRounds (p : Peer) (now : SessionTime) : p.Retains (p.expireRounds now) := by
  unfold expireRounds
  split
  · exact .refl p
  · exact ⟨rfl, rfl⟩

theorem retains_flushLog (p : Peer) (now : SessionTime) : p.Retains (p.flushLog now) := ⟨rfl, rfl⟩

/-! ## What may end the session -/

/-- The books are left as they are, or the session ends and what waits is thrown away. -/
def Clears (p q : Peer) : Prop :=
  p.Retains q ∨ (q.inputBooks = p.inputBooks.cleared ∧ p.isFinished = false ∧ q.isFinished = true)

theorem Retains.clears {p q : Peer} (h : p.Retains q) : p.Clears q := Or.inl h

namespace Clears

theorem refl (p : Peer) : p.Clears p := (Retains.refl p).clears

/-- A change that touches neither the books nor the phase. -/
theorem of_eq {p q : Peer} (books : q.inputBooks = p.inputBooks) (phase : q.phase = p.phase) : p.Clears q :=
  Or.inl ⟨books, congrArg PeerPhase.isFinished phase⟩

/-- A change of a session that is not over, after which it is not over either. -/
theorem of_on {p q : Peer} {phase phase' : PeerPhase} (books : q.inputBooks = p.inputBooks) (here : p.phase = phase)
    (on : phase.isFinished = false) (there : q.phase = phase') (on' : phase'.isFinished = false) : p.Clears q :=
  (Retains.of_on books here on there on').clears

theorem trans {p q r : Peer} (first : p.Clears q) (second : q.Clears r) : p.Clears r := by
  rcases first with same | ⟨books, on, isOver⟩
  · rcases second with same' | ⟨books', on', isOver'⟩
    · exact (same.trans same').clears
    · exact Or.inr ⟨books'.trans (congrArg InputBooks.cleared same.books), same.isFinished ▸ on', isOver'⟩
  · rcases second with same' | ⟨-, on', -⟩
    · exact Or.inr ⟨same'.books.trans books, on, same'.isFinished.trans isOver⟩
    · rw [isOver] at on'
      cases on'

/-- With nothing that waits, nothing is thrown away. -/
theorem books_eq {p q : Peer} (h : p.Clears q) (none : p.inputBooks.waiting = 0) : q.inputBooks = p.inputBooks := by
  rcases h with same | ⟨books, -⟩
  · exact same.books
  · exact books.trans (InputBooks.cleared_of_none none)

end Clears

theorem clears_conclude {p : Peer} (on : p.isFinished = false) (now : SessionTime) : p.Clears (p.conclude now) :=
  Or.inr ⟨rfl, on, rfl⟩

theorem finished_terminate (p : Peer) : p.terminate.isFinished = true := by
  unfold terminate
  cases isOver : p.isFinished with
  | true => exact isOver
  | false => rfl

theorem clears_terminate (p : Peer) : p.Clears p.terminate := by
  unfold terminate
  cases on : p.isFinished with
  | true => exact .refl p
  | false => exact Or.inr ⟨congrArg InputBooks.cleared (inputBooks_send p .finish p.now), on, rfl⟩

theorem clears_onControl (p : Peer) (m : SyncMessage) : p.Clears (p.onControl m) := by
  cases m with
  | start seed =>
    dsimp only [onControl, onStart]
    by_cases waiting : (p.noteRemoteTime seed).phase = .waiting
    · rw [if_pos waiting]
      exact .of_on rfl waiting rfl rfl rfl
    · rw [if_neg waiting]
      exact .of_eq rfl rfl
  | pause time =>
    dsimp only [onControl, onPause]
    by_cases running : (p.noteRemoteTime time).phase = .running
    · rw [if_pos running]
      exact .of_on rfl running rfl rfl rfl
    · rw [if_neg running]
      exact .of_eq rfl rfl
  | resume time =>
    dsimp only [onControl, onResume]
    by_cases paused : (p.noteRemoteTime time).phase = .paused
    · rw [if_pos paused]
      exact .of_on rfl paused rfl rfl rfl
    · rw [if_neg paused]
      exact .of_eq rfl rfl
  | finish =>
    dsimp only [onControl]
    cases isOver : p.isFinished with
    | true => exact .refl p
    | false => exact clears_conclude isOver p.now
  | delta | forward | heartbeat | hello => exact .refl p

theorem clears_reconcile (p : Peer) (m : SyncMessage) : p.Clears (p.reconcile m) := by
  have taken : ∀ q : Peer, q.inputBooks = p.inputBooks → q.phase = p.phase → p.Clears { q with
      reconciler := (q.reconciler.onRemoteMessage q.battery q.config.remoteId m).1
      battery := (q.reconciler.onRemoteMessage q.battery q.config.remoteId m).2.1 } := fun q books phase =>
    .of_eq ((by
      unfold inputBooks
      dsimp only
      rw [Reconciler.localInputs_onRemoteMessage] : _ = q.inputBooks).trans books) phase
  unfold reconcile
  cases m.writeTime? with
  | none | some time =>
    dsimp only
    split
    · exact taken _ rfl rfl
    · exact taken _ rfl rfl
    · exact taken _ rfl rfl
    · exact (taken _ rfl rfl).trans (.of_eq rfl rfl)
    · refine Clears.trans ?_ (clears_onControl _ _)
      exact taken _ rfl rfl

theorem clears_releaseUpTo (limit : Nat) (p : Peer) : p.Clears (releaseUpTo limit p) := by
  induction limit generalizing p with
  | zero => exact .refl p
  | succ limit ih =>
    unfold releaseUpTo
    cases p.held with
    | nil => exact .refl p
    | cons m rest =>
      have taken : p.Clears { p with held := rest } := .of_eq rfl rfl
      dsimp only
      split
      · exact .refl p
      · exact (taken.trans (clears_reconcile _ m)).trans (ih _)

theorem clears_releaseHeld (p : Peer) : p.Clears p.releaseHeld := clears_releaseUpTo p.held.length p

theorem clears_onSessionCommand (p : Peer) (c : SessionCommand) (now : SessionTime) :
    p.Clears (p.onSessionCommand c now) := by
  cases c with
  | finish => exact clears_terminate p
  | pause => exact (retains_pause p).clears
  | resume => exact (retains_resume p).clears
  | log | showLabels | allowEscape | allowAltF4 => exact .of_eq rfl rfl

theorem clears_runCommand (p : Peer) (c : ScenarioCommand) (now : SessionTime) : p.Clears (p.runCommand c now) := by
  unfold runCommand
  dsimp only
  split
  · exact .of_eq rfl rfl
  · refine Clears.trans ?_ (clears_onSessionCommand _ _ now)
    exact .of_eq rfl rfl
  · exact .of_eq rfl rfl

theorem clears_runCommands (commands : List ScenarioCommand) (p : Peer) (now : SessionTime) :
    p.Clears (p.runCommands now commands) := by
  induction commands generalizing p with
  | nil => exact .refl p
  | cons c rest ih =>
    unfold runCommands
    dsimp only
    split
    · exact clears_runCommand p c now
    · exact (clears_runCommand p c now).trans (ih _)

theorem clears_dispatchScenario (p : Peer) (now : SessionTime) : p.Clears (p.dispatchScenario now) := by
  unfold dispatchScenario
  split
  · exact .refl p
  · split
    · exact .of_eq rfl rfl
    · have handedOut : p.Clears { p with queue := (p.queue.advance now.wholeSeconds).2 } := .of_eq rfl rfl
      exact handedOut.trans (clears_runCommands _ _ now)

theorem clears_runLinkTimers (p : Peer) (now : SessionTime) : p.Clears (p.runLinkTimers now) := by
  unfold runLinkTimers
  split
  · exact .of_eq rfl rfl
  · rename_i link _
    dsimp only
    cases isOver : ({ p with link := link } : Peer).isFinished with
    | true => exact .of_eq rfl rfl
    | false => exact Or.inr ⟨rfl, isOver, rfl⟩
  · exact .of_eq rfl rfl

/-! ## What becomes of the inputs that wait -/

theorem inputBooks_applyInput (p : Peer) (payload : InputPayload) (now : SessionTime) :
    (p.applyInput payload now).inputBooks = { p.inputBooks with applied := p.inputBooks.applied + 1 } := by
  have sent : ∀ (l : List SyncMessage) (q : Peer),
      (l.foldl (fun q m => q.send m now) q).inputBooks = q.inputBooks := by
    intro l
    induction l with
    | nil => exact fun _ => rfl
    | cons m rest ih => exact fun q => (ih _).trans (inputBooks_send q m now)
  unfold applyInput
  dsimp only
  rw [sent]
  unfold inputBooks
  dsimp only
  rw [Reconciler.localInputs_onLocalInput]

theorem inputBooks_applied (inputs : List InputPayload) (now : SessionTime) (p : Peer) :
    (inputs.foldl (fun q payload => q.applyInput payload now) p).inputBooks =
      { p.inputBooks with applied := p.inputBooks.applied + inputs.length } := by
  induction inputs generalizing p with
  | nil => rfl
  | cons payload rest ih =>
    refine (ih (p.applyInput payload now)).trans ?_
    rw [inputBooks_applyInput, List.length_cons, Nat.add_assoc, Nat.add_comm 1]

/-- **The second stage of a step** leaves nothing to wait: what waited has been handed to the reconciler, or it has been
counted as dropped. -/
theorem inputBooks_applyLocalInputs (p : Peer) (now : SessionTime) :
    (p.applyLocalInputs now).inputBooks =
      if p.phase = .running then
        { p.inputBooks.cleared with applied := p.inputBooks.applied + p.inputBooks.waiting }
      else { p.inputBooks.cleared with dropped := p.inputBooks.dropped + p.inputBooks.waiting } := by
  unfold applyLocalInputs
  by_cases running : p.phase = .running
  · rw [if_pos running]
    dsimp only
    rw [if_neg (not_not_intro running), inputBooks_applied]
    rfl
  · rw [if_neg running]
    dsimp only
    rw [if_pos running]
    rfl

/-! ## A step -/

theorem clears_heard (p : Peer) : p.Clears p.heard := by
  have received : p.Clears p.received := .of_eq rfl rfl
  exact received.trans (clears_releaseHeld p.received)

/-- After the second stage of a step nothing is thrown away. -/
theorem inputBooks_run (p : Peer) :
    p.run.inputBooks = (p.heard.applyLocalInputs p.heard.now).inputBooks := by
  have later : (p.heard.applyLocalInputs p.heard.now).Clears p.run := by
    rw [run_eq]
    have released := (clears_dispatchScenario _ p.heard.now).trans (clears_releaseHeld p.dispatched)
    have expired := released.trans (retains_expireRounds _ p.heard.now).clears
    have timed := expired.trans (clears_runLinkTimers _ p.heard.now)
    exact timed.trans (retains_flushLog _ p.heard.now).clears
  refine later.books_eq ?_
  rw [inputBooks_applyLocalInputs]
  split <;> rfl

/-- What is missed is not changed by the second stage and those after it. -/
theorem misses_run {p : Peer} {n : Nat} (h : p.heard.inputBooks.Misses n) : p.run.inputBooks.Misses n := by
  have same : p.heard.inputBooks.submitted = p.heard.inputBooks.applied + p.heard.inputBooks.dropped +
    p.heard.inputBooks.waiting + n := h
  rw [inputBooks_run, inputBooks_applyLocalInputs]
  split
  all_goals
    simp only [InputBooks.Misses, InputBooks.known, InputBooks.cleared]
    omega

/-! ## What is thrown away -/

/-- An action ends the session before the inputs that wait are attended to. -/
def endsFirst (p : Peer) : PeerAction → Bool
  | .terminate => true
  | .escape => p.options.allowEscape
  | .step dt => (p.advanced dt).heard.isFinished
  | .submit _ | .pause | .resume | .transport _ | .pollTransmit | .requeueOutbound | .drainNotifications => false

/-- An action ends the session while inputs wait, before they are attended to. -/
structure Discards (p : Peer) (action : PeerAction) : Prop where
  on : p.isFinished = false
  ends : p.endsFirst action = true
  waiting : p.pendingInputs.toList ≠ []

/-- The number of inputs that an action throws away. -/
def discarded (p : Peer) (action : PeerAction) : Nat :=
  if p.isFinished = false ∧ p.endsFirst action = true then p.pendingInputs.toList.length else 0

theorem discarded_eq_zero {p : Peer} {action : PeerAction} : p.discarded action = 0 ↔ ¬ p.Discards action := by
  unfold discarded
  split
  · rename_i ends
    rw [List.length_eq_zero_iff]
    exact ⟨fun none discards => discards.waiting none,
      fun keeps => Decidable.byContradiction fun some => keeps ⟨ends.1, ends.2, some⟩⟩
  · rename_i goesOn
    exact iff_of_true rfl fun discards => goesOn ⟨discards.on, discards.ends⟩

/-- The books after a change that may end the session. -/
theorem Clears.misses {p q : Peer} {n : Nat} (h : p.Clears q) (before : p.inputBooks.Misses n) :
    q.inputBooks.Misses (n + if p.isFinished = false ∧ q.isFinished = true then p.inputBooks.waiting else 0) := by
  rcases h with same | ⟨books, on, isOver⟩
  · rw [if_neg fun ends => absurd (same.isFinished ▸ ends.2) (ne_true_of_eq_false ends.1), same.books]
    exact before
  · rw [if_pos ⟨on, isOver⟩, books]
    exact before.cleared

/-- **What an action throws away** is what is missed in addition. -/
theorem misses_perform {p : Peer} {n : Nat} (before : p.inputBooks.Misses n) (action : PeerAction) :
    (p.perform action).inputBooks.Misses (n + p.discarded action) := by
  have terminated : p.terminate.inputBooks.Misses (n + p.discarded .terminate) := by
    have after := (clears_terminate p).misses before
    rw [p.finished_terminate] at after
    exact after
  have retained : ∀ {q : Peer}, p.Retains q → p.endsFirst action = false →
      q.inputBooks.Misses (n + p.discarded action) := by
    intro q same goesOn
    unfold discarded
    rw [if_neg fun ends => absurd ends.2 (ne_true_of_eq_false goesOn), same.books]
    exact before
  cases action with
  | step dt =>
    have moved : p.Clears (p.advanced dt) := .of_eq rfl rfl
    rw [perform_step]
    exact misses_run ((moved.trans (clears_heard (p.advanced dt))).misses before)
  | terminate => exact terminated
  | escape =>
    unfold perform escape
    cases allowed : p.options.allowEscape with
    | true =>
      have same : p.discarded .escape = p.discarded .terminate := by
        simp only [discarded, endsFirst, allowed]
      rw [same]
      exact terminated
    | false => exact retained (.refl p) allowed
  | submit payload =>
    have goesOn : p.discarded (.submit payload) = 0 := if_neg fun ends => Bool.false_ne_true ends.2
    have same : p.stats.inputsSubmitted = p.reconciler.stats.localInputs + p.stats.inputsDropped +
      p.pendingInputs.toList.length + n := before
    have waiting : (p.pendingInputs.push payload).toList.length = p.pendingInputs.toList.length + 1 := by
      rw [Fifo.toList_push, List.length_append, List.length_singleton]
    rw [goesOn]
    show p.stats.inputsSubmitted + 1 = p.reconciler.stats.localInputs + p.stats.inputsDropped +
      (p.pendingInputs.push payload).toList.length + (n + 0)
    omega
  | pause => exact retained p.retains_pause rfl
  | resume => exact retained p.retains_resume rfl
  | transport e => exact retained (p.retains_onTransport e) rfl
  | pollTransmit | requeueOutbound | drainNotifications => exact retained ⟨rfl, rfl⟩ rfl

/-! ## A run -/

/-- The number of inputs that a run throws away. -/
def discardedIn (p : Peer) : List PeerAction → Nat
  | [] => 0
  | action :: rest => p.discarded action + (p.perform action).discardedIn rest

theorem discardedIn_eq_zero {p : Peer} {actions : List PeerAction} : p.discardedIn actions = 0 ↔
    ∀ n action, actions[n]? = some action → ¬ (p.performAll (actions.take n)).Discards action := by
  induction actions generalizing p with
  | nil => exact iff_of_true rfl nofun
  | cons first rest ih =>
    have split : p.discardedIn (first :: rest) = 0 ↔
        ¬ p.Discards first ∧ (p.perform first).discardedIn rest = 0 := by
      rw [discardedIn, Nat.add_eq_zero_iff, discarded_eq_zero]
    rw [split, ih]
    constructor
    · rintro ⟨keeps, later⟩ n action here
      cases n with
      | zero => exact Option.some.inj here ▸ keeps
      | succ n => exact later n action here
    · exact fun all => ⟨all 0 first rfl, fun n action here => all (n + 1) action here⟩

theorem misses_performAll (actions : List PeerAction) {p : Peer} {n : Nat} (before : p.inputBooks.Misses n) :
    (p.performAll actions).inputBooks.Misses (n + p.discardedIn actions) := by
  induction actions generalizing p n with
  | nil => exact before
  | cons action rest ih =>
    rw [discardedIn, ← Nat.add_assoc]
    exact ih (misses_perform before action)

/-- The inputs that were submitted have been handed to the reconciler, or counted as dropped, or they wait. -/
def InputsAccounted (p : Peer) : Prop :=
  p.stats.inputsSubmitted = p.reconciler.stats.localInputs + p.stats.inputsDropped + p.pendingInputs.toList.length

instance (p : Peer) : Decidable p.InputsAccounted := inferInstanceAs (Decidable (_ = _))

/-- **What becomes of the inputs**, along every run: they have been handed to the reconciler, counted as dropped, or
thrown away, or they wait. -/
theorem submitted_performAll (config : PeerConfig) (commands : List ScenarioCommand) (actions : List PeerAction) :
    ((new config commands).performAll actions).stats.inputsSubmitted =
      ((new config commands).performAll actions).reconciler.stats.localInputs +
        ((new config commands).performAll actions).stats.inputsDropped +
        ((new config commands).performAll actions).pendingInputs.toList.length +
        (new config commands).discardedIn actions := by
  have fresh : (new config commands).inputBooks.Misses 0 := rfl
  have after := misses_performAll actions fresh
  rw [Nat.zero_add] at after
  exact after

/-- **When every input is accounted for.**  After any run of a peer this is so exactly if no action of the run has
ended the session while inputs waited that were still to be attended to. -/
theorem inputsAccounted_iff (config : PeerConfig) (commands : List ScenarioCommand) (actions : List PeerAction) :
    ((new config commands).performAll actions).InputsAccounted ↔
      ∀ n action, actions[n]? = some action →
        ¬ ((new config commands).performAll (actions.take n)).Discards action := by
  have books := submitted_performAll config commands actions
  rw [← discardedIn_eq_zero, InputsAccounted]
  omega

/-! ### An input at the end -/

/-- The operator ends the session when an input has been submitted that no step has attended to. -/
def hurriedEnd : List PeerAction := metRun ++ [.submit (.trackingMove .zero .zero), .terminate]

/-- The input is not applied, it is not counted as dropped, and it does not wait. -/
theorem not_inputsAccounted_hurriedEnd :
    ¬ ((new (.simulated .host) startScript).performAll hurriedEnd).InputsAccounted := by
  rw [← lateHost, lateHost_eq]
  decide +kernel

end Peer

end Tandem
