import Tandem.Proofs.Link.Lifecycle
import Tandem.Proofs.Peer.Turns
import Tandem.Proofs.Store.Cells
import Tandem.Simulation.Pair
/-!
# After the end

A session ends in three ways: an operator or the scenario ends it, the other peer does, or the other peer has not come
back in time.  Each of them leaves the peer *closed* (`Peer.Closed`): nothing is pending, the clock stands still, and
the link takes and sends nothing any more.  A closed peer stays closed whatever is done to it.

Only one thing is left that can still change the tasks.  A session that is ended between two steps finds messages in
the inbox of the link that no step has fetched, and the next step reconciles them although the session is over.
`Peer.remnant` is what the tasks come to when all of them have been reconciled.  It is the same throughout, so the end
is final exactly if it is what the tasks are at the end (`Peer.final_iff`).  When the session ends within a step the
inbox is empty.
-/

namespace Tandem

/-! ## What a message comes to -/

/-- Two batteries with the same tasks, rounds and scenes.  What is waiting to be told about them may differ. -/
structure Battery.Alike (b b' : Battery) : Prop where
  tasks : b.store.tasks = b'.store.tasks
  matching : b.matching = b'.matching

namespace Battery.Alike

variable {a b c : Battery}

theorem refl (b : Battery) : b.Alike b := ⟨rfl, rfl⟩

theorem symm (h : a.Alike b) : b.Alike a := ⟨h.tasks.symm, h.matching.symm⟩

theorem trans (first : a.Alike b) (second : b.Alike c) : a.Alike c :=
  ⟨first.tasks.trans second.tasks, first.matching.trans second.matching⟩

theorem read (h : a.Alike b) (t : TaskId) : a.store.read t = b.store.read t := congrArg (PerTask.get · t) h.tasks

theorem of_read (tasks : ∀ t, a.store.read t = b.store.read t) (matching : a.matching = b.matching) : a.Alike b :=
  ⟨PerTask.ext_get tasks, matching⟩

theorem apply (h : a.Alike b) (m : Mutation) : (a.apply m).1.Alike (b.apply m).1 ∧ (a.apply m).2 = (b.apply m).2 := by
  refine ⟨of_read (fun t => ?_) h.matching, ?_⟩
  · show ((a.store.apply m).1.read t) = (b.store.apply m).1.read t
    rw [Store.read_apply, Store.read_apply, h.read t, h.read m.task]
  · show (a.store.apply m).2 = (b.store.apply m).2
    rw [Store.outcome_apply, Store.outcome_apply, h.read m.task]

theorem inputEffect (h : a.Alike b) (e : InputEvent) (stamp : Stamp) :
    a.inputEffect e stamp = b.inputEffect e stamp := by
  unfold Battery.inputEffect
  rw [h.matching, h.read e.target]

theorem applyInput (h : a.Alike b) (e : InputEvent) (stamp : Stamp) (origin : Origin) :
    (a.applyInput e stamp origin).1.Alike (b.applyInput e stamp origin).1 ∧
      (a.applyInput e stamp origin).2 = (b.applyInput e stamp origin).2 := by
  unfold Battery.applyInput
  rw [h.read e.target, h.inputEffect e stamp]
  split
  · exact ⟨h, rfl⟩
  · have placed : ∀ matching, Battery.Alike { a with matching := matching } { b with matching := matching } :=
      fun _ => ⟨h.tasks, rfl⟩
    dsimp only
    split
    · exact ⟨placed _, rfl⟩
    · exact ⟨placed _, rfl⟩
    · rename_i changes _ _
      obtain ⟨alike, same⟩ := (placed (b.inputEffect e stamp).1).apply ⟨e.target, origin, changes⟩
      exact ⟨alike, congrArg Except.ok same⟩

theorem onRemoteMessage (h : a.Alike b) (r : Reconciler) (sender : ParticipantId) (m : SyncMessage) :
    (r.onRemoteMessage a sender m).1 = (r.onRemoteMessage b sender m).1 ∧
      (r.onRemoteMessage a sender m).2.1.Alike (r.onRemoteMessage b sender m).2.1 := by
  have shared : (fun t => !(a.store.read t).isShared) = (fun t => !(b.store.read t).isShared) :=
    funext fun t => by rw [h.read t]
  unfold Reconciler.onRemoteMessage
  rw [shared]
  split
  · exact ⟨rfl, h⟩
  · cases m with
    | forward e stamp =>
      dsimp only [Reconciler.onRemoteInput]
      split
      · exact ⟨rfl, h⟩
      · split
        · exact ⟨rfl, h⟩
        · obtain ⟨alike, same⟩ := h.applyInput e stamp (.remoteInput sender)
          generalize a.applyInput e stamp (.remoteInput sender) = x at alike same
          generalize b.applyInput e stamp (.remoteInput sender) = y at alike same
          obtain ⟨x, fault | outcome⟩ := x <;> obtain ⟨y, fault' | outcome'⟩ := y <;> cases same <;> exact ⟨rfl, alike⟩
    | delta t changes =>
      obtain ⟨alike, same⟩ := h.apply ⟨t, .remoteDelta sender, changes⟩
      dsimp only [Reconciler.onDelta]
      rw [same]
      exact ⟨rfl, alike⟩
    | heartbeat | hello | start | pause | resume | finish => exact ⟨rfl, h⟩

end Battery.Alike

/-- The tasks when messages of the other peer have been reconciled. -/
def Reconciler.remnant (sender : ParticipantId) : Reconciler → Battery → List SyncMessage → Battery
  | _, b, [] => b
  | r, b, m :: rest => remnant sender (r.onRemoteMessage b sender m).1 (r.onRemoteMessage b sender m).2.1 rest

theorem Reconciler.remnant_alike {b b' : Battery} (h : b.Alike b') (sender : ParticipantId)
    (messages : List SyncMessage) (r : Reconciler) :
    (r.remnant sender b messages).Alike (r.remnant sender b' messages) := by
  induction messages generalizing r b b' with
  | nil => exact h
  | cons m rest ih =>
    obtain ⟨same, alike⟩ := h.onRemoteMessage r sender m
    unfold remnant
    rw [same]
    exact ih alike _

namespace Peer

/-! ## Deeds of a closed peer -/

/-- What stays when a session is over. -/
structure Closed (p : Peer) : Prop where
  finished : p.isFinished = true
  pending : p.queue.pending = []
  clock : p.clock.isRunning = false
  link : p.link.Sealed

/-- The tasks when every message that has arrived has been reconciled. -/
def remnant (p : Peer) : Battery :=
  p.reconciler.remnant p.config.remoteId p.battery (p.held ++ p.link.inbox.toList)

/-- What is left as it is in a step when the session is over. -/
structure Rests (p q : Peer) : Prop where
  config : q.config = p.config
  phase : q.phase = p.phase
  clock : q.clock = p.clock
  queue : q.queue = p.queue
  link : q.link = p.link
  finals : q.finalFrames = p.finalFrames
  held : p.held = [] → q.held = []
  remnant : q.remnant.Alike p.remnant

namespace Rests

theorem refl (p : Peer) : p.Rests p := ⟨rfl, rfl, rfl, rfl, rfl, rfl, id, .refl _⟩

theorem trans {p q r : Peer} (first : p.Rests q) (second : q.Rests r) : p.Rests r where
  config := second.config.trans first.config
  phase := second.phase.trans first.phase
  clock := second.clock.trans first.clock
  queue := second.queue.trans first.queue
  link := second.link.trans first.link
  finals := second.finals.trans first.finals
  held := second.held ∘ first.held
  remnant := second.remnant.trans first.remnant

theorem closed {p q : Peer} (h : p.Rests q) (closed : p.Closed) : q.Closed where
  finished := by rw [isFinished, h.phase]; exact closed.finished
  pending := by rw [h.queue]; exact closed.pending
  clock := by rw [h.clock]; exact closed.clock
  link := by rw [h.link]; exact closed.link

end Rests

variable {p : Peer}

theorem ne_phase {phase : PeerPhase} (isOver : p.isFinished = true) (on : phase.isFinished = false) :
    p.phase ≠ phase := by
  intro same
  rw [isFinished, same, on] at isOver
  cases isOver

/-- A message that steers the session has nothing to steer any more. -/
theorem onControl_finished (isOver : p.isFinished = true) (m : SyncMessage) :
    ∃ t, p.onControl m = { p with remoteTime := t } := by
  cases m with
  | start seed => exact ⟨_, if_neg (ne_phase isOver rfl)⟩
  | pause time => exact ⟨_, if_neg (ne_phase isOver rfl)⟩
  | resume time => exact ⟨_, if_neg (ne_phase isOver rfl)⟩
  | finish => exact ⟨p.remoteTime, if_pos isOver⟩
  | delta | forward | heartbeat | hello => exact ⟨p.remoteTime, rfl⟩

/-- A message that is reconciled after the end still reaches the tasks, and nothing else. -/
theorem reconcile_finished (isOver : p.isFinished = true) (m : SyncMessage) : ∃ t s, p.reconcile m = { p with
    reconciler := (p.reconciler.onRemoteMessage p.battery p.config.remoteId m).1
    battery := (p.reconciler.onRemoteMessage p.battery p.config.remoteId m).2.1
    remoteTime := t
    stats := s } := by
  unfold reconcile
  cases m.writeTime? with
  | none | some time =>
    dsimp only
    split
    · exact ⟨_, _, rfl⟩
    · exact ⟨_, _, rfl⟩
    · exact ⟨_, _, rfl⟩
    · exact ⟨_, _, rfl⟩
    · exact (onControl_finished (by exact isOver) _).imp fun t steered => ⟨_, steered⟩

/-- A change of what is not in question after the end. -/
theorem Rests.of_eq {q : Peer} (config : q.config = p.config) (phase : q.phase = p.phase) (clock : q.clock = p.clock)
    (queue : q.queue = p.queue) (link : q.link = p.link) (finals : q.finalFrames = p.finalFrames)
    (held : q.held = p.held) (reconciler : q.reconciler = p.reconciler) (battery : q.battery.Alike p.battery) :
    p.Rests q where
  config := config
  phase := phase
  clock := clock
  queue := queue
  link := link
  finals := finals
  held nothing := held.trans nothing
  remnant := by
    unfold Peer.remnant
    rw [config, link, held, reconciler]
    exact Reconciler.remnant_alike battery _ _ _

end Peer

/-- **A deed after the end** leaves everything as it is, up to messages that are still reconciled. -/
theorem Deed.rests {cause : Cause} {a b : Moment} (h : Deed cause a b) (closed : a.peer.Closed) :
    a.peer.Rests b.peer := by
  have isOver := closed.finished
  cases h with
  | @heeds p m rest first ready =>
    obtain ⟨t, s, reconciled⟩ := Peer.reconcile_finished (p := { p with held := rest }) isOver m
    rw [reconciled]
    refine ⟨rfl, rfl, rfl, rfl, rfl, rfl, fun nothing => ?_, ?_⟩
    · exact absurd (first.symm.trans nothing) (List.cons_ne_nil m rest)
    · -- The message was the first of those that were still to be reconciled.
      unfold Peer.remnant
      rw [first]
      exact .refl _
  | attends p now =>
    have attended : p.applyLocalInputs now = { p with pendingInputs := .empty }.count
        (fun s => { s with inputsDropped := s.inputsDropped + p.pendingInputs.toList.length }) :=
      if_pos (Peer.ne_phase isOver rfl)
    rw [attended]
    exact .of_eq rfl rfl rfl rfl rfl rfl rfl rfl (.refl _)
  | withholds p => exact .of_eq rfl rfl rfl rfl rfl rfl rfl rfl (.refl _)
  | handsOut p now running => exact absurd running (Peer.ne_phase isOver rfl)
  | runs p c rest now on =>
    rw [on] at isOver
    cases isOver
  | expires p now =>
    have still : p.expireRounds now = p := if_pos (Peer.ne_phase isOver rfl)
    rw [still]
    exact .refl p
  | ticks p now =>
    have still : p.runLinkTimers now = p := by
      unfold Peer.runLinkTimers
      rw [closed.link.tick now]
    rw [still]
    exact .refl p
  | flushes p now => exact .of_eq rfl rfl rfl rfl rfl rfl rfl rfl ⟨rfl, rfl⟩

/-! ## How a session ends -/

namespace Peer

/-- A closed peer that holds no message. -/
structure AtRest (p : Peer) : Prop extends Closed p where
  held : p.held = []

/-- If the session is over, the peer is at rest. -/
def Concluded (p : Peer) : Prop := p.isFinished = true → p.AtRest

variable {p : Peer}

theorem Concluded.of_phase {phase : PeerPhase} (here : p.phase = phase) (on : phase.isFinished = false) :
    p.Concluded := by
  intro isOver
  rw [isFinished, here, on] at isOver
  cases isOver

theorem atRest_conclude (p : Peer) (now : SessionTime) : (p.conclude now).AtRest :=
  ⟨⟨rfl, rfl, rfl, p.link.sealed_close now⟩, rfl⟩

theorem Concluded.pause (h : p.Concluded) : p.pause.Concluded := by
  unfold Peer.pause
  split
  · exact h
  · exact .of_phase (phase_send _ _ _) rfl

theorem Concluded.resume (h : p.Concluded) : p.resume.Concluded := by
  unfold Peer.resume
  split
  · exact h
  · exact .of_phase (phase_send _ _ _) rfl

theorem Concluded.terminate (h : p.Concluded) : p.terminate.Concluded := by
  unfold Peer.terminate
  split
  · exact h
  · exact fun _ => atRest_conclude _ _

theorem Concluded.maybeStart (h : p.Concluded) (now : SessionTime) : (p.maybeStart now).Concluded := by
  unfold Peer.maybeStart
  split
  · exact h
  · exact .of_phase (phase_send _ _ _) rfl

/-- The end that the other peer tells, or no end at all. -/
theorem Concluded.onControl (on : p.isFinished = false) (m : SyncMessage) : (p.onControl m).Concluded := by
  have still : ∀ q : Peer, q.phase = p.phase → q.Concluded := fun q same => .of_phase same on
  cases m with
  | start seed =>
    dsimp only [Peer.onControl, onStart]
    split
    · exact .of_phase rfl rfl
    · exact still _ rfl
  | pause time =>
    dsimp only [Peer.onControl, onPause]
    split
    · exact .of_phase rfl rfl
    · exact still _ rfl
  | resume time =>
    dsimp only [Peer.onControl, onResume]
    split
    · exact .of_phase rfl rfl
    · exact still _ rfl
  | finish =>
    have ended : p.onControl .finish = p.conclude p.now := if_neg (by rw [on]; decide)
    rw [ended]
    exact fun _ => atRest_conclude p p.now
  | delta | forward | heartbeat | hello => exact still p rfl

theorem Concluded.reconcile (on : p.isFinished = false) (m : SyncMessage) : (p.reconcile m).Concluded := by
  obtain ⟨q, done | ⟨m', steered⟩, -, phase⟩ := reconcile_cases p m
  · rw [done]
    exact .of_phase phase on
  · rw [steered]
    exact .onControl (by rw [isFinished, phase]; exact on) m'

theorem Concluded.onSessionCommand (on : p.isFinished = false) (c : SessionCommand) (now : SessionTime) :
    (p.onSessionCommand c now).Concluded := by
  have still : ∀ {q : Peer}, q.phase = p.phase → q.Concluded := fun same => .of_phase same on
  cases c with
  | finish => exact (still rfl).terminate
  | pause => exact (still rfl).pause
  | resume => exact (still rfl).resume
  | log | showLabels | allowEscape | allowAltF4 => exact still rfl

theorem Concluded.runCommand (on : p.isFinished = false) (c : ScenarioCommand) (now : SessionTime) :
    (p.runCommand c now).Concluded := by
  unfold Peer.runCommand
  dsimp only
  split
  · exact .of_phase rfl on
  · exact .onSessionCommand (by exact on) _ now
  · exact .of_phase rfl on

/-- The end when the other peer has not come back in time. -/
theorem Concluded.runLinkTimers (h : p.Concluded) (now : SessionTime) : (p.runLinkTimers now).Concluded := by
  cases isOver : p.isFinished with
  | true =>
    have still : p.runLinkTimers now = p := by
      unfold Peer.runLinkTimers
      rw [(h isOver).link.tick now]
    rw [still]
    exact h
  | false =>
    have on : ∀ {q : Peer}, q.phase = p.phase → q.Concluded := fun same => .of_phase same isOver
    unfold Peer.runLinkTimers
    split
    · exact on rfl
    · rename_i link aborted
      dsimp only
      rw [if_neg (by rw [isFinished] at isOver ⊢; rw [isOver]; decide)]
      -- The link has closed itself when it gives up.
      have shut := (Link.sealed_of_aborted (l := p.link) (by rw [aborted])).1
      rw [aborted] at shut
      exact fun _ => ⟨⟨rfl, rfl, rfl, shut⟩, rfl⟩
    · exact on rfl

end Peer

/-- **However a session ends in a step**, the peer is at rest. -/
theorem Deed.concluded {cause : Cause} {a b : Moment} (h : Deed cause a b) (before : a.peer.Concluded) :
    b.peer.Concluded := by
  cases isOver : a.peer.isFinished with
  | true =>
    have rest := before isOver
    have rests := h.rests rest.toClosed
    exact fun _ => ⟨rests.closed rest.toClosed, rests.held rest.held⟩
  | false =>
    have on : ∀ {q : Peer}, q.phase = a.peer.phase → q.Concluded := fun same => .of_phase same isOver
    cases h with
    | @heeds p m rest => exact Peer.Concluded.reconcile (p := { p with held := rest }) isOver m
    | attends p now =>
      obtain ⟨-, -, phase⟩ := p.goesOn_applyLocalInputs now
      exact on phase
    | withholds p => exact on rfl
    | handsOut p now running => exact Peer.Concluded.of_phase running rfl
    | runs p c rest now => exact Peer.Concluded.runCommand isOver c now
    | expires p now =>
      refine on ?_
      unfold Peer.expireRounds
      split <;> rfl
    | ticks p now => exact before.runLinkTimers now
    | flushes p now => exact on rfl

/-! ## Whole actions -/

namespace Peer

/-- When the session is over no message has to wait: what is held is reconciled to the last one. -/
theorem held_releaseUpTo {p : Peer} (isOver : p.isFinished = true) {limit : Nat} (enough : p.held.length ≤ limit) :
    (releaseUpTo limit p).held = [] := by
  induction limit generalizing p with
  | zero => exact List.length_eq_zero_iff.mp (Nat.le_zero.mp enough)
  | succ limit ih =>
    unfold releaseUpTo
    cases held : p.held with
    | nil => exact held
    | cons m rest =>
      have ready : p.mustWait m = false := by
        unfold mustWait
        rw [decide_eq_false (ne_phase isOver rfl)]
        rfl
      obtain ⟨t, s, reconciled⟩ := reconcile_finished (p := { p with held := rest }) isOver m
      dsimp only
      rw [ready, if_neg Bool.false_ne_true, reconciled]
      rw [held] at enough
      exact ih (by exact isOver) (Nat.le_of_succ_le_succ enough)

/-- How a peer goes on when the session is over. -/
structure Stays (p q : Peer) : Prop where
  rest : q.AtRest
  phase : q.phase = p.phase
  now : q.now = p.now
  finals : q.finalFrames <+: p.finalFrames
  remnant : q.remnant.Alike p.remnant
  /-- What has arrived waits until a step fetches it. -/
  inbox : (q.link.inbox.toList = p.link.inbox.toList ∧ q.battery.Alike p.battery) ∨ q.link.inbox.toList = []

theorem Stays.trans {p q r : Peer} (first : p.Stays q) (second : q.Stays r) : p.Stays r where
  rest := second.rest
  phase := second.phase.trans first.phase
  now := second.now.trans first.now
  finals := second.finals.trans first.finals
  remnant := second.remnant.trans first.remnant
  inbox := by
    rcases second.inbox with ⟨waits, alike⟩ | fetched
    · rcases first.inbox with ⟨waits', alike'⟩ | fetched
      · exact Or.inl ⟨waits.trans waits', alike.trans alike'⟩
      · exact Or.inr (waits.trans fetched)
    · exact Or.inr fetched

namespace AtRest

variable {p : Peer} (h : p.AtRest)
include h

theorem remnant : p.remnant = p.reconciler.remnant p.config.remoteId p.battery p.link.inbox.toList := by
  rw [Peer.remnant, h.held]
  rfl

theorem refl : p.Stays p := ⟨h, rfl, rfl, List.prefix_refl _, .refl _, Or.inl ⟨rfl, .refl _⟩⟩

/-- A change of the connection, the frames that are ready, or what is told about the tasks. -/
theorem aside {q : Peer} (config : q.config = p.config) (phase : q.phase = p.phase) (clock : q.clock = p.clock)
    (queue : q.queue = p.queue) (held : q.held = p.held) (reconciler : q.reconciler = p.reconciler)
    (shut : q.link.Sealed) (inbox : q.link.inbox.toList = p.link.inbox.toList)
    (finals : q.finalFrames <+: p.finalFrames) (battery : q.battery.Alike p.battery) : p.Stays q where
  rest := by
    refine ⟨⟨?_, ?_, ?_, shut⟩, held.trans h.held⟩
    · rw [isFinished, phase]
      exact h.finished
    · rw [queue]
      exact h.pending
    · rw [clock]
      exact h.clock
  phase := phase
  now := congrArg SessionClock.now clock
  finals := finals
  remnant := by
    rw [Peer.remnant, Peer.remnant, config, held, inbox, reconciler]
    exact Reconciler.remnant_alike battery _ _ _
  inbox := Or.inl ⟨inbox, battery⟩

theorem maybeStart (now : SessionTime) : p.maybeStart now = p :=
  if_pos (Or.inr (Or.inl (ne_phase h.finished rfl)))

theorem terminate : p.terminate = p := if_pos h.finished

theorem took (f : Frame) : p.Stays (p.took f) := by
  have link : (p.link.onFrame f p.now).1 = p.link := h.link.onFrame f p.now
  unfold Peer.took
  split
  all_goals
    rename_i taken
    rw [taken] at link
    subst link
    exact h.aside rfl rfl rfl rfl rfl rfl h.link rfl (List.prefix_refl _) (.refl _)

theorem onTransport (e : TransportEvent) : p.Stays (p.onTransport e) := by
  cases e with
  | connected epoch address =>
    have link : p.link.onConnected p.now = p.link := h.link.onConnected p.now
    refine h.aside rfl rfl rfl rfl rfl rfl ?_ (congrArg (fun l : Link => l.inbox.toList) link) (List.prefix_refl _)
      (.refl _)
    show (p.link.onConnected p.now).Sealed
    rw [link]
    exact h.link
  | frame epoch f =>
    show p.Stays (p.perform (.transport (.frame epoch f)))
    rw [perform_frame]
    split
    · rw [(h.took f).rest.maybeStart]
      exact h.took f
    · exact h.aside rfl rfl rfl rfl rfl rfl h.link rfl (List.prefix_refl _) (.refl _)
  | disconnected epoch reason =>
    unfold Peer.onTransport
    dsimp only
    split
    · have inbox := congrArg LinkStream.inbox (Link.stream_onDisconnected p.link p.now)
      exact h.aside rfl rfl rfl rfl rfl rfl (h.link.onDisconnected p.now) inbox (List.prefix_refl _) (.refl _)
    · exact h.refl

/-- **A step after the end** fetches what has arrived and reconciles all of it. -/
theorem step (dt : Duration) : p.Stays (p.perform (.step dt)) ∧ (p.perform (.step dt)).link.inbox.toList = [] := by
  have stopped : p.advanced dt = p := by
    have clock : p.clock.advance dt = p.clock := if_neg (by rw [h.clock]; exact Bool.false_ne_true)
    unfold advanced
    rw [clock]
  have closed : p.received.Closed := ⟨h.finished, h.pending, h.clock, h.link.state, h.link.outbox⟩
  -- The peer is closed all the way, though what has been fetched is still held at the beginning.
  have along : ∀ {a b : Moment} {l}, Path a l b → a.peer.Closed → a.peer.Rests b.peer := by
    intro a b l path
    refine path.preserves (R := fun a b => a.peer.Closed → a.peer.Rests b.peer) (fun a _ => .refl _) ?_
      fun deed => deed.rests
    intro a b c first second closed
    exact (first closed).trans (second ((first closed).closed closed))
  have heard : p.received.Rests p.heard := along p.path_heard closed
  have later : p.heard.Rests p.run := along p.path_laterStages (heard.closed closed)
  have rests := heard.trans later
  have nothing : p.run.held = [] := later.held (held_releaseUpTo closed.finished (Nat.le_refl _))
  have empty : p.run.link.inbox.toList = [] := by
    have link : p.run.link = p.received.link := rests.link
    rw [link]
    rfl
  rw [perform_step, stopped]
  refine ⟨⟨⟨rests.closed closed, nothing⟩, rests.phase, ?_, ?_, ?_, Or.inr empty⟩, empty⟩
  · exact congrArg SessionClock.now rests.clock
  · rw [rests.finals]
    exact List.prefix_refl _
  · have fetched : p.received.remnant = p.remnant := by
      show p.reconciler.remnant p.config.remoteId p.battery ((p.held ++ p.link.inbox.toList) ++ []) = _
      rw [List.append_nil, Peer.remnant]
    rw [← fetched]
    exact rests.remnant

/-- **Whatever is done after the end.** -/
theorem perform (action : PeerAction) : p.Stays (p.perform action) := by
  cases action with
  | step dt => exact (h.step dt).1
  | submit payload => exact h.aside rfl rfl rfl rfl rfl rfl h.link rfl (List.prefix_refl _) (.refl _)
  | pause =>
    have still : p.perform .pause = p := if_pos (ne_phase h.finished rfl)
    rw [still]
    exact h.refl
  | resume =>
    have still : p.perform .resume = p := if_pos (ne_phase h.finished rfl)
    rw [still]
    exact h.refl
  | terminate =>
    rw [show p.perform .terminate = p from h.terminate]
    exact h.refl
  | escape =>
    rw [perform_escape]
    split
    · rw [h.terminate]
      exact h.refl
    · exact h.refl
  | transport e => exact h.onTransport e
  | pollTransmit =>
    exact h.aside rfl rfl rfl rfl rfl rfl h.link.drainOutbound.2 rfl List.nil_prefix (.refl _)
  | requeueOutbound =>
    show p.Stays p.requeueOutbound
    unfold Peer.requeueOutbound
    rw [h.link.requeue p.now]
    exact h.refl
  | drainNotifications => exact h.aside rfl rfl rfl rfl rfl rfl h.link rfl (List.prefix_refl _) ⟨rfl, rfl⟩

theorem performAll (actions : List PeerAction) : p.Stays (p.performAll actions) := by
  induction actions generalizing p with
  | nil => exact h.refl
  | cons action rest ih => exact (h.perform action).trans (ih (h.perform action).rest)

end AtRest

/-- Whatever is done, a session that is over has been concluded. -/
theorem Concluded.perform {p : Peer} (h : p.Concluded) (action : PeerAction) : (p.perform action).Concluded := by
  cases isOver : p.isFinished with
  | true => exact fun _ => ((h isOver).perform action).rest
  | false =>
    have on : ∀ {q : Peer}, q.phase = p.phase → q.Concluded := fun same => .of_phase same isOver
    cases action with
    | step dt =>
      have received : (p.advanced dt).received.Concluded := on rfl
      exact step_keeps (P := fun a => a.peer.Concluded) Deed.concluded received
    | submit payload => exact on (q := p.submitInput payload) rfl
    | pollTransmit => exact on (q := p.pollTransmit.2) rfl
    | requeueOutbound => exact on (q := p.requeueOutbound) rfl
    | drainNotifications => exact on (q := p.drainNotifications.2) rfl
    | pause => exact h.pause
    | resume => exact h.resume
    | terminate => exact h.terminate
    | escape =>
      rw [perform_escape]
      split
      · exact h.terminate
      · exact h
    | transport e =>
      cases e with
      | connected => exact on rfl
      | frame epoch f =>
        rw [perform_frame]
        split
        · have took : (p.took f).phase = p.phase := congrArg Stance.phase (p.stance_took f)
          exact (on took).maybeStart _
        · exact on rfl
      | disconnected epoch =>
        refine on ?_
        rw [perform_disconnected]
        split <;> rfl

/-- **A session that is over has been concluded.** -/
theorem concluded_performAll (config : PeerConfig) (commands : List ScenarioCommand) (actions : List PeerAction) :
    ((Peer.new config commands).performAll actions).Concluded := by
  have waiting : (Peer.new config commands).phase = .waiting := rfl
  exact performAll_keeps Concluded.perform actions (.of_phase waiting rfl)

/-! ## The end is final -/

/-- The frames that a peer yields in an action. -/
def yields (p : Peer) : PeerAction → List Frame
  | .pollTransmit => p.pollTransmit.1
  | _ => []

/-- The frames that a peer yields in a run. -/
def polled : Peer → List PeerAction → List Frame
  | _, [] => []
  | p, action :: rest => p.yields action ++ (p.perform action).polled rest

theorem AtRest.yields {p : Peer} (h : p.AtRest) (action : PeerAction) :
    p.yields action = [] ∨ (p.yields action = p.finalFrames ∧ (p.perform action).finalFrames = []) := by
  cases action with
  | pollTransmit =>
    refine Or.inr ⟨?_, rfl⟩
    show p.finalFrames ++ p.link.drainOutbound.1 = p.finalFrames
    rw [h.link.drainOutbound.1, List.append_nil]
  | step | submit | pause | resume | terminate | escape | transport | requeueOutbound | drainNotifications =>
    exact Or.inl rfl

/-- After the end only the frames that were ready are yielded. -/
theorem AtRest.polled {p : Peer} (h : p.AtRest) (actions : List PeerAction) : p.polled actions <+: p.finalFrames := by
  induction actions generalizing p with
  | nil => exact List.nil_prefix
  | cons action rest ih =>
    have stays := h.perform action
    have later := ih stays.rest
    have finals := stays.finals
    have yields := h.yields action
    unfold Peer.polled
    generalize p.perform action = q at later finals yields ⊢
    rcases yields with nothing | ⟨all, none⟩
    · rw [nothing]
      exact later.trans finals
    · rw [none, List.prefix_nil] at later
      have whole : p.yields action ++ q.polled rest = p.finalFrames := by rw [all, later, List.append_nil]
      exact whole ▸ List.prefix_refl _

/-- When a step has come since the end, the tasks are what they come to. -/
theorem Stays.battery {p q : Peer} (h : p.Stays q) (fetched : q.link.inbox.toList = []) :
    q.battery.Alike p.remnant := by
  have here : q.remnant = q.battery := by
    rw [h.rest.remnant, fetched]
    rfl
  exact here ▸ h.remnant

theorem inbox_performAll (p : Peer) (earlier : List PeerAction) (dt : Duration) :
    (p.performAll (earlier ++ [.step dt])).link.inbox.toList = [] := by
  rw [performAll_concat]
  exact (p.performAll earlier).inbox_step dt

/-- **The end is final**: once the session of a peer is over, its phase and its session time never change, no command
is pending, and no frame is yielded but those that were ready, whatever is done to it.  The tasks, the round and the
scene never change exactly if the messages that were left in the inbox change nothing; after a step there are none. -/
theorem final_iff (config : PeerConfig) (commands : List ScenarioCommand) (before : List PeerAction)
    (isOver : ((Peer.new config commands).performAll before).isFinished = true) :
    let p := (Peer.new config commands).performAll before
    (∀ actions, (p.performAll actions).phase = p.phase ∧ (p.performAll actions).now = p.now ∧
      (p.performAll actions).queue.pending = [] ∧ p.polled actions <+: p.pollTransmit.1) ∧
    ((∀ actions, (p.performAll actions).battery.Alike p.battery) ↔
      (p.reconciler.remnant p.config.remoteId p.battery p.link.inbox.toList).Alike p.battery) ∧
    (∀ earlier dt, before = earlier ++ [.step dt] → p.link.inbox.toList = []) := by
  intro p
  have rest : p.AtRest := concluded_performAll config commands before isOver
  refine ⟨fun actions => ?_, ⟨fun final => ?_, fun same actions => ?_⟩, ?_⟩
  · have stays := rest.performAll actions
    refine ⟨stays.phase, stays.now, stays.rest.pending, (rest.polled actions).trans ?_⟩
    exact List.prefix_append _ _
  · -- A step that takes no time fetches what is left, so nothing may come of it if the end is final.
    have fetched := (rest.step .zero).1.battery (rest.step .zero).2
    rw [rest.remnant] at fetched
    exact fetched.symm.trans (final [.step .zero])
  · rw [← rest.remnant] at same
    have stays := rest.performAll actions
    rcases stays.inbox with ⟨-, alike⟩ | fetched
    · exact alike
    · exact (stays.battery fetched).trans same
  · rintro earlier dt rfl
    exact inbox_performAll _ earlier dt

/-! ### A message in the inbox -/

/-- A script that starts the tracking task. -/
def startScript : List ScenarioCommand := [⟨0, 0, .act (.task .tracking) .start, 1, 0⟩]

/-- The guest's participant moves the cursor. -/
def lateMove : SyncMessage :=
  .forward (InputEvent.captured ⟨2⟩ ⟨100⟩ (.trackingMove .zero .zero)) ⟨⟨100⟩, 0, .participant ⟨2⟩⟩

/-- A frame of the guest arrives. -/
def guestFrame (seq : UInt64) (m : SyncMessage) : List PeerAction :=
  (Frame.ofMessage ⟨42⟩ ⟨2⟩ seq m).toOption.toList.map fun f => .transport (.frame 1 f)

/-- The host meets the guest, and both go on for two tenths of a second. -/
def metRun : List PeerAction :=
  .transport (.connected 1 Role.guest.simulatedAddress) :: guestFrame 0 (.hello ⟨2⟩ 0) ++ [.step (.ofMillis 200)]

/-- The operator ends the session between two steps. -/
def calmEnd : List PeerAction := metRun ++ [.terminate]

/-- The operator ends the session when a message has arrived that no step has fetched. -/
def hastyEnd : List PeerAction := metRun ++ guestFrame 1 lateMove ++ [.terminate]

/-- The host at the beginning. -/
def lateHost : Peer := .new (.simulated .host) startScript

theorem lateHost_eq : lateHost = { Peer.new (.simulated .host) [] with queue := ⟨startScript, 0, false⟩ } :=
  new_of_sorted _ (by decide)

/-- With nothing in the inbox the end is final. -/
theorem final_iff_calmEnd : (lateHost.performAll calmEnd).isFinished = true ∧
    ∀ actions, ((lateHost.performAll calmEnd).performAll actions).battery.Alike
      (lateHost.performAll calmEnd).battery := by
  have facts : (lateHost.performAll calmEnd).isFinished = true ∧
      (lateHost.performAll calmEnd).link.inbox.toList = [] := by
    rw [lateHost_eq]
    decide +kernel
  obtain ⟨isOver, empty⟩ := facts
  refine ⟨isOver, (final_iff (.simulated .host) startScript calmEnd isOver).2.1.mpr ?_⟩
  show ((lateHost.performAll calmEnd).reconciler.remnant _ _ (lateHost.performAll calmEnd).link.inbox.toList).Alike _
  rw [empty]
  exact .refl _

/-- The message that was left moves the cursor after the end. -/
theorem not_final_hastyEnd : (lateHost.performAll hastyEnd).isFinished = true ∧
    ¬ ∀ actions, ((lateHost.performAll hastyEnd).performAll actions).battery.Alike
      (lateHost.performAll hastyEnd).battery := by
  have facts : (lateHost.performAll hastyEnd).isFinished = true ∧
      ((lateHost.performAll hastyEnd).store.read .tracking).version = 1 ∧
      (((lateHost.performAll hastyEnd).performAll [.step .zero]).store.read .tracking).version = 2 := by
    rw [lateHost_eq]
    decide +kernel
  obtain ⟨isOver, before, after⟩ := facts
  refine ⟨isOver, fun final => ?_⟩
  have same : ((lateHost.performAll hastyEnd).performAll [.step .zero]).store.read .tracking =
      (lateHost.performAll hastyEnd).store.read .tracking := (final [.step .zero]).read .tracking
  rw [same, before] at after
  cases after

end Peer

end Tandem
