import Tandem.Proofs.Peer.Deeds
import Tandem.Proofs.Store.Replay
/-!
# What the mutation log tells

The log of a peer has a record of every mutation that changed something.  `Peer.records_reproduce`: between two
actions the records are the whole story.  Applied in order to tasks at the start of a session, each of them takes full
effect, and what they lead to are the tasks of the peer, with stamps, versions and last participants.

Within a step the story is in two places, since mutations go to the journal of the store first and from there to the
log at the end of the step or of the session.  What is carried through a step is therefore `Peer.Accounted`: the
records and then the journal reproduce the tasks.  A deed changes the tasks by mutations that the journal notes
(`Store.Told.apply`), or moves the journal to the log (`Accounted.flushLog`), or leaves all of this alone; and where an
action is over, the journal is empty.
-/

namespace Tandem

/-- The mutation that a record tells of. -/
def MutationRecord.mutation (r : MutationRecord) : Mutation := ⟨r.task, r.origin, r.changes⟩

namespace Peer

variable {p q : Peer}

/-- How many commands have been run, and how many of them came to nothing. -/
def tally (p : Peer) : Nat × Nat := (p.stats.commandsDispatched, p.stats.commandsSkipped)

/-- The parts of a peer that tell of changes: the tasks, what has been noted and counted of mutations, and how many
commands have been run. -/
structure Books where
  tasks : PerTask TaskState
  journal : Fifo Notification
  log : Fifo LogEntry
  mutationsLogged : Nat
  tally : Nat × Nat

def books (p : Peer) : Books := ⟨p.store.tasks, p.store.journal, p.log, p.stats.mutationsLogged, p.tally⟩

/-- The records, then the journal, reproduce the tasks, and the records have been counted. -/
structure Accounted (p : Peer) : Prop where
  told : p.store.Told (p.records.map MutationRecord.mutation)
  counted : p.stats.mutationsLogged = p.records.length

theorem records_eq (p : Peer) : p.records = p.log.toList.filterMap LogEntry.record? := by
  rw [records, recordsFrom, loggedFrom, Fifo.after_eq]
  rfl

theorem Accounted.still (h : p.Accounted) (same : q.books = p.books) : q.Accounted := by
  simp only [books, Books.mk.injEq] at same
  obtain ⟨tasks, journal, log, counted, -⟩ := same
  have records : q.records = p.records := by rw [records_eq, records_eq, log]
  constructor
  · rw [records, Store.Told, tasks, journal]
    exact h.told
  · rw [records, counted]
    exact h.counted

/-- The tasks take a mutation at most, and the log stays as it is. -/
theorem Accounted.becomes (h : p.Accounted) (store : p.store.Becomes q.store) (log : q.log = p.log)
    (counted : q.stats.mutationsLogged = p.stats.mutationsLogged) : q.Accounted := by
  have records : q.records = p.records := by rw [records_eq, records_eq, log]
  constructor
  · rw [records]
    exact h.told.becomes store
  · rw [records, counted]
    exact h.counted

/-- **The journal goes to the log as it is.** -/
theorem Accounted.flushLog (h : p.Accounted) (now : SessionTime) : (p.flushLog now).Accounted := by
  have records : (p.flushLog now).records =
      p.records ++ p.store.journal.toList.map (MutationRecord.ofNotification now) := by
    rw [records_eq, records_eq]
    show (p.log.append _).toList.filterMap _ = _
    rw [Fifo.toList_append, List.filterMap_append, List.filterMap_map]
    exact congrArg (_ ++ ·) (List.filterMap_eq_map' ▸ rfl)
  have told : (p.store.journal.toList.map (MutationRecord.ofNotification now)).map MutationRecord.mutation =
      p.store.journal.toList.map Notification.mutation := by
    rw [List.map_map]
    rfl
  constructor
  · rw [records, List.map_append, told]
    have emptied : Reproduces _ p.store.tasks := h.told
    show Reproduces (_ ++ List.map _ []) p.store.tasks
    rw [List.map_nil, List.append_nil]
    exact emptied
  · rw [records, List.length_append, List.length_map, ← h.counted]
    rfl

/-- The session ends or goes on, and either way the books are only kept: they stay as they are, or the journal is
moved to the log. -/
def Files (p q : Peer) : Prop :=
  q.books = p.books ∨ ∃ (r : Peer) (now : SessionTime), r.books = p.books ∧ q.books = (r.flushLog now).books

theorem Accounted.files (h : p.Accounted) (files : p.Files q) : q.Accounted := by
  rcases files with same | ⟨r, now, before, after⟩
  · exact h.still same
  · exact ((h.still before).flushLog now).still after

/-- No command is counted by it. -/
theorem Files.tally (h : p.Files q) : q.tally = p.tally := by
  rcases h with same | ⟨r, now, before, after⟩
  · exact congrArg Books.tally same
  · exact (congrArg Books.tally after).trans (congrArg Books.tally before)

/-! ## What leaves the tasks alone -/

/-- The books and the rounds of a peer. -/
def ledger (p : Peer) : Books × Coordinator := (p.books, p.battery.matching)

/-- Nothing happens to the tasks and the rounds, and the journal is moved to the log at most. -/
def Settles (p q : Peer) : Prop :=
  q.ledger = p.ledger ∨ ∃ (r : Peer) (now : SessionTime), r.ledger = p.ledger ∧ q.ledger = (r.flushLog now).ledger

theorem Settles.files (h : p.Settles q) : p.Files q := by
  rcases h with same | ⟨r, now, before, after⟩
  · exact Or.inl (congrArg Prod.fst same)
  · exact Or.inr ⟨r, now, congrArg Prod.fst before, congrArg Prod.fst after⟩

theorem ledger_send (p : Peer) (m : SyncMessage) (now : SessionTime) : (p.send m now).ledger = p.ledger := by
  unfold send
  split <;> rfl

theorem settles_send (p : Peer) (m : SyncMessage) (now : SessionTime) : p.Settles (p.send m now) :=
  Or.inl (p.ledger_send m now)

theorem settles_pause (p : Peer) : p.Settles p.pause := by
  unfold pause
  split
  · exact Or.inl rfl
  · exact settles_send _ _ _

theorem settles_resume (p : Peer) : p.Settles p.resume := by
  unfold resume
  split
  · exact Or.inl rfl
  · exact settles_send _ _ _

theorem ledger_maybeStart (p : Peer) (now : SessionTime) : (p.maybeStart now).ledger = p.ledger := by
  unfold maybeStart
  split
  · rfl
  · exact ledger_send _ _ _

theorem settles_onTransport (p : Peer) (e : TransportEvent) : p.Settles (p.onTransport e) := by
  refine Or.inl ?_
  cases e with
  | connected => rfl
  | frame epoch f =>
    unfold onTransport
    dsimp only
    split
    · unfold onFrame
      rw [ledger_maybeStart]
      split <;> rfl
    · rfl
  | disconnected epoch =>
    unfold onTransport
    dsimp only
    split <;> rfl

theorem settles_terminate (p : Peer) : p.Settles p.terminate := by
  unfold terminate
  split
  · exact Or.inl rfl
  · refine Or.inr ⟨_, p.now, ?_, rfl⟩
    exact p.ledger_send .finish p.now

theorem settles_onControl (p : Peer) (m : SyncMessage) : p.Settles (p.onControl m) := by
  cases m with
  | start seed =>
    dsimp only [onControl, onStart]
    split <;> exact Or.inl rfl
  | pause time =>
    dsimp only [onControl, onPause]
    split <;> exact Or.inl rfl
  | resume time =>
    dsimp only [onControl, onResume]
    split <;> exact Or.inl rfl
  | finish =>
    dsimp only [onControl]
    split
    · exact Or.inl rfl
    · exact Or.inr ⟨_, p.now, rfl, rfl⟩
  | delta | forward | heartbeat | hello => exact Or.inl rfl

theorem settles_runLinkTimers (p : Peer) (now : SessionTime) : p.Settles (p.runLinkTimers now) := by
  unfold runLinkTimers
  split
  · exact Or.inl rfl
  · dsimp only
    split
    · exact Or.inl rfl
    · exact Or.inr ⟨_, now, rfl, rfl⟩
  · exact Or.inl rfl

/-- Only a step changes the tasks and the rounds. -/
theorem settles_perform (p : Peer) {action : PeerAction} (notStep : ∀ dt, action ≠ .step dt) :
    p.Settles (p.perform action) := by
  cases action with
  | step dt => exact absurd rfl (notStep dt)
  | submit | pollTransmit | requeueOutbound | drainNotifications => exact Or.inl rfl
  | pause => exact p.settles_pause
  | resume => exact p.settles_resume
  | terminate => exact p.settles_terminate
  | escape =>
    rw [perform_escape]
    split
    · exact p.settles_terminate
    · exact Or.inl rfl
  | transport e => exact p.settles_onTransport e

/-! ## What the stages of a step write -/

namespace Accounted

theorem reconcile (h : p.Accounted) (m : SyncMessage) : (p.reconcile m).Accounted := by
  have becomes := p.reconciler.becomes_onRemoteMessage p.battery p.config.remoteId m
  unfold Peer.reconcile
  cases m.writeTime? with
  | none | some time =>
    dsimp only [noteRemoteTime]
    split
    · exact h.becomes becomes rfl rfl
    · exact h.becomes becomes rfl rfl
    · exact h.becomes becomes rfl rfl
    · exact h.becomes becomes rfl rfl
    · refine Accounted.files ?_ (settles_onControl _ _).files
      exact h.becomes becomes rfl rfl

theorem applyInput (h : p.Accounted) (payload : InputPayload) (now : SessionTime) :
    (p.applyInput payload now).Accounted := by
  have becomes := p.reconciler.becomes_onLocalInput p.battery (.captured p.config.localId now payload) now
  unfold Peer.applyInput
  exact List.foldlRecOn _ _ (h.becomes becomes rfl rfl) fun q told m _ => told.files (q.settles_send m now).files

theorem applyLocalInputs (h : p.Accounted) (now : SessionTime) : (p.applyLocalInputs now).Accounted := by
  unfold Peer.applyLocalInputs
  dsimp only
  split
  · exact h.still rfl
  · exact List.foldlRecOn _ _ (h.still rfl) fun q told payload _ => told.applyInput payload now

theorem onSessionCommand (h : p.Accounted) (c : SessionCommand) (now : SessionTime) :
    (p.onSessionCommand c now).Accounted := by
  cases c with
  | finish => exact h.files p.settles_terminate.files
  | pause => exact h.files p.settles_pause.files
  | resume => exact h.files p.settles_resume.files
  | log message =>
    -- A message of the scenario is an entry of the log, but not a record.
    have records : (p.onSessionCommand (.log message) now).records = p.records := by
      rw [records_eq, records_eq]
      show (p.log.push _).toList.filterMap _ = _
      rw [Fifo.toList_push, List.filterMap_append]
      exact List.append_nil _
    constructor
    · rw [records]
      exact h.told
    · rw [records]
      exact h.counted
  | showLabels | allowEscape | allowAltF4 => exact h.still rfl

theorem runCommand (h : p.Accounted) (c : ScenarioCommand) (now : SessionTime) :
    (p.runCommand c now).Accounted := by
  have becomes := p.battery.becomes_run c
  unfold Peer.runCommand
  dsimp only
  split
  · exact h.becomes becomes rfl rfl
  · refine Accounted.onSessionCommand ?_ _ now
    exact h.becomes becomes rfl rfl
  · exact h.becomes becomes rfl rfl

theorem expireRounds (h : p.Accounted) (now : SessionTime) : (p.expireRounds now).Accounted := by
  unfold Peer.expireRounds
  split
  · exact h
  · exact h.becomes (p.battery.becomes_expireRounds _) rfl rfl

end Accounted

end Peer

/-- **Whatever a peer does in a step** keeps its books. -/
theorem Deed.accounted {cause : Cause} {a b : Moment} (h : Deed cause a b) (before : a.peer.Accounted) :
    b.peer.Accounted := by
  cases h with
  | @heeds p m rest => exact (before.still (q := { p with held := rest }) rfl).reconcile m
  | attends p now => exact before.applyLocalInputs now
  | withholds | handsOut => exact before.still rfl
  | runs p c rest now => exact before.runCommand c now
  | expires p now => exact before.expireRounds now
  | ticks p now => exact before.files (p.settles_runLinkTimers now).files
  | flushes p now => exact before.flushLog now

namespace Peer

variable {p : Peer}

theorem accounted_new (config : PeerConfig) (commands : List ScenarioCommand) :
    (Peer.new config commands).Accounted := ⟨.nil, rfl⟩

theorem Accounted.perform (h : p.Accounted) (action : PeerAction) : (p.perform action).Accounted := by
  rcases action.step_cases with ⟨dt, rfl⟩ | notStep
  · have received : (p.advanced dt).received.Accounted := h.still rfl
    exact step_keeps (P := fun a => a.peer.Accounted) Deed.accounted received
  · exact h.files (p.settles_perform notStep).files

/-- Every mutation that has been noted is in the log. -/
def Flushed (p : Peer) : Prop := p.store.journal.toList = []

/-- Between two actions the journal is empty. -/
theorem Flushed.perform (flushed : p.Flushed) (action : PeerAction) : (p.perform action).Flushed := by
  rcases action.step_cases with ⟨dt, rfl⟩ | notStep
  · rw [perform_step, run_eq]
    rfl
  · rcases (p.settles_perform notStep).files with same | ⟨r, now, -, after⟩
    · have journal : (p.perform action).store.journal = p.store.journal := congrArg Books.journal same
      exact (congrArg Fifo.toList journal).trans flushed
    · have journal : (p.perform action).store.journal = .empty := congrArg Books.journal after
      exact congrArg Fifo.toList journal

/-- **The records are the whole story.**  At every point of every run, the records of the log, applied in order to
tasks at the start of a session, all have something to change and take full effect, and they lead to the tasks of the
peer.  The counter of the log is the number of the records. -/
theorem records_reproduce (config : PeerConfig) (commands : List ScenarioCommand) (actions : List PeerAction)
    (capacity : Nat) :
    let p := (Peer.new config commands).performAll actions
    let replayed := (Store.new capacity).applyAll (p.records.map MutationRecord.mutation)
    replayed.2 = p.records.map (fun r => ⟨r.changes, 0⟩) ∧ (∀ r ∈ p.records, r.changes ≠ []) ∧
      (∀ t, replayed.1.read t = p.store.read t) ∧ p.stats.mutationsLogged = p.records.length := by
  have accounted := performAll_keeps Accounted.perform actions (accounted_new config commands)
  have fresh : (Peer.new config commands).Flushed := rfl
  have flushed := performAll_keeps Flushed.perform actions fresh
  have told := accounted.told
  rw [Store.Told, flushed, List.map_nil, List.append_nil] at told
  refine ⟨?_, ?_, ?_, accounted.counted⟩
  · rw [told.outcomes, List.map_map]
    rfl
  · exact fun r mem => told.effective r.mutation (List.mem_map_of_mem mem)
  · exact fun t => congrArg (PerTask.get · t) (told.tasks_eq capacity)

end Peer

end Tandem
