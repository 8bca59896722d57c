import Tandem.Proofs.Link.Lifecycle
import Tandem.Proofs.Peer.Conversation
import Tandem.Proofs.Peer.InputPairs
/-!
# How a peer uses its link

Whatever is done to a peer, all that it does to its link is to call it.  Apart from the frames that come from the
connection (`Peer.noted`) the calls are the peer's own, and those change neither the configuration of the link nor who
is known to be at the other end (`Peer.Calls.keeps`).  So in every run the configuration of the link stays, and the link
is established only when the other end is known (`Peer.settings_performAll`, `Peer.sound_performAll`).

A peer gives messages to its link in some of these calls.  `Peer.Reports` says which of them are news, that is, about
the state of a task: those that its own inputs lead to (`Peer.news`), and no others.  There is one lemma for each thing
a peer does.
-/

namespace Tandem

/-- Whether a call comes from the peer whose link it is. -/
def LinkCall.isOwn : LinkCall → Bool
  | .frame _ => false
  | _ => true

/-- The message that a call gives to the link, if it gives one. -/
def LinkCall.given? : LinkCall → Option SyncMessage
  | .send m => some m
  | _ => none

/-- Whether a message is about the state of a task, and not about the session or the link. -/
def SyncMessage.isNews (m : SyncMessage) : Bool := m.task?.isSome

namespace Link

/-- The messages that calls give to a link, in order. -/
def given (calls : List (SessionTime × LinkCall)) : List SyncMessage := calls.filterMap fun c => c.2.given?

/-- The frames that calls fetch from a link to be sent. -/
def fetchedFrames : Link → List (SessionTime × LinkCall) → List Frame
  | _, [] => []
  | l, (now, .drainOutbound) :: rest => l.drainOutbound.1 ++ (l.call now .drainOutbound).fetchedFrames rest
  | l, (now, c) :: rest => (l.call now c).fetchedFrames rest

theorem mem_fetchedFrames_append {l : Link} {calls later : List (SessionTime × LinkCall)} {f : Frame} :
    f ∈ l.fetchedFrames (calls ++ later) ↔ f ∈ l.fetchedFrames calls ∨ f ∈ (l.callAll calls).fetchedFrames later := by
  induction calls generalizing l with
  | nil => simp [fetchedFrames, callAll]
  | cons c rest ih =>
    obtain ⟨now, c⟩ := c
    cases c with
    | drainOutbound =>
      rw [List.cons_append, fetchedFrames, fetchedFrames, List.mem_append, List.mem_append, ih, or_assoc]
      rfl
    | send | tick | connected | disconnected | requeue | close | drainInbound | frame => exact ih

/-- Only a frame tells who is at the other end. -/
theorem remote_call (l : Link) (now : SessionTime) {c : LinkCall} (own : c.isOwn = true) :
    (l.call now c).remote = l.remote := by
  cases c with
  | send m => exact congrArg LinkStanding.remote (l.standing_send m now)
  | tick => exact congrArg LinkBond.remote (l.bond_tick now)
  | connected => exact congrArg LinkStanding.remote (l.standing_onConnected now)
  | disconnected => exact congrArg LinkBond.remote (l.bond_onDisconnected now)
  | requeue => exact congrArg LinkStanding.remote (l.standing_requeue now)
  | close => exact congrArg LinkBond.remote (l.bond_close now)
  | drainOutbound | drainInbound => rfl
  | frame f => cases own

end Link

namespace Peer

/-- The peer has called its link, any number of times. -/
def Calls (p q : Peer) : Prop :=
  ∃ calls : List (SessionTime × LinkCall), (∀ c ∈ calls, c.2.isOwn = true) ∧ q.link = p.link.callAll calls

namespace Calls

variable {p q r : Peer}

/-- A change that leaves the link alone. -/
theorem of_eq (same : q.link = p.link) : p.Calls q :=
  ⟨[], fun _ mem => absurd mem List.not_mem_nil, same⟩

theorem refl (p : Peer) : p.Calls p := .of_eq rfl

theorem trans (first : p.Calls q) (second : q.Calls r) : p.Calls r := by
  obtain ⟨calls, own, same⟩ := first
  obtain ⟨calls', own', same'⟩ := second
  refine ⟨calls ++ calls', fun c mem => ?_, ?_⟩
  · exact (List.mem_append.mp mem).elim (own c) (own' c)
  · rw [same', same, Link.callAll_append]

/-- **What a peer's own calls keep**: the configuration of the link, and who is known to be at the other end. -/
theorem keeps (h : p.Calls q) : q.link.config = p.link.config ∧ q.link.remote = p.link.remote := by
  obtain ⟨calls, own, same⟩ := h
  rw [same]
  refine ⟨p.link.config_callAll calls, ?_⟩
  exact List.foldlRecOn (motive := fun l : Link => l.remote = p.link.remote) calls _ rfl
    fun l before c mem => (l.remote_call c.1 (own c mem)).trans before

theorem sound (h : p.Calls q) (before : p.link.standing.Sound) : q.link.standing.Sound := by
  obtain ⟨calls, -, same⟩ := h
  exact same ▸ Link.sound_callAll before calls

end Calls

/-! ## What is given to the link -/

/-- What the messages of a peer go through. -/
structure Outlet where
  link : Link
  /-- The frames that were taken from the link before it was closed. -/
  finals : List Frame
  /-- How often the link has been asked to send a message. -/
  asked : Nat

/-- What the messages of a peer go through. -/
def outlet (p : Peer) : Outlet := ⟨p.link, p.finalFrames, p.stats.messagesSent + p.stats.sendFailures⟩

/-- The peer has made these calls on its link.  Each message that it gives to the link is counted as sent or as failed,
and the frames that are put aside have been fetched. -/
structure Uses (p : Peer) (calls : List (SessionTime × LinkCall)) (q : Peer) : Prop where
  own : ∀ c ∈ calls, c.2.isOwn = true
  link : q.link = p.link.callAll calls
  asked : q.outlet.asked = p.outlet.asked + (Link.given calls).length
  finals : ∀ f ∈ q.finalFrames, f ∈ p.finalFrames ∨ f ∈ p.link.fetchedFrames calls

/-- The news among the messages that the peer has given to its link are these, in this order. -/
def Reports (p : Peer) (news : List SyncMessage) (q : Peer) : Prop :=
  ∃ calls, p.Uses calls q ∧ (Link.given calls).filter SyncMessage.isNews = news

variable {p q r : Peer} {news news' : List SyncMessage}

theorem Uses.trans {calls later : List (SessionTime × LinkCall)} (first : p.Uses calls q) (second : q.Uses later r) :
    p.Uses (calls ++ later) r where
  own c mem := (List.mem_append.mp mem).elim (first.own c) (second.own c)
  link := by rw [second.link, first.link, Link.callAll_append]
  asked := by
    rw [second.asked, first.asked, Link.given, Link.given, Link.given, List.filterMap_append, List.length_append,
      Nat.add_assoc]
  finals f mem := by
    rcases second.finals f mem with before | fetched
    · exact (first.finals f before).imp_right fun fetched => Link.mem_fetchedFrames_append.mpr (Or.inl fetched)
    · exact Or.inr (Link.mem_fetchedFrames_append.mpr (Or.inr (first.link ▸ fetched)))

namespace Reports

theorem calls (h : p.Reports news q) : p.Calls q := by
  obtain ⟨calls, uses, -⟩ := h
  exact ⟨calls, uses.own, uses.link⟩

/-- A change that leaves the outlet alone. -/
theorem of_eq (same : q.outlet = p.outlet) : p.Reports [] q := by
  simp only [outlet, Outlet.mk.injEq] at same
  obtain ⟨link, finals, asked⟩ := same
  exact ⟨[], ⟨fun _ mem => absurd mem List.not_mem_nil, link, asked, fun f mem => Or.inl (finals ▸ mem)⟩, rfl⟩

theorem refl (p : Peer) : p.Reports [] p := .of_eq rfl

/-- A call that gives the link no message and fetches nothing. -/
theorem silent {t : SessionTime} {c : LinkCall} (called : q.link = p.link.call t c) (own : c.isOwn = true)
    (given : c.given? = none) (finals : q.finalFrames = p.finalFrames) (asked : q.outlet.asked = p.outlet.asked) :
    p.Reports [] q := by
  have nothing : Link.given [(t, c)] = [] := List.filterMap_cons_none given
  refine ⟨[(t, c)], ⟨fun d mem => List.mem_singleton.mp mem ▸ own, called, ?_, fun f mem => Or.inl (finals ▸ mem)⟩, ?_⟩
  · rw [nothing, asked, List.length_nil, Nat.add_zero]
  · rw [nothing, List.filter_nil]

theorem trans (first : p.Reports news q) (second : q.Reports news' r) : p.Reports (news ++ news') r := by
  obtain ⟨calls, uses, rfl⟩ := first
  obtain ⟨later, uses', rfl⟩ := second
  exact ⟨calls ++ later, uses.trans uses', by rw [Link.given, List.filterMap_append, List.filter_append]; rfl⟩

/-- Before the news, something without news. -/
theorem after (second : q.Reports news r) (first : p.Reports [] q) : p.Reports news r := first.trans second

/-- After the news, something without news. -/
theorem still (first : p.Reports news q) (second : q.Reports [] r) : p.Reports news r :=
  List.append_nil news ▸ first.trans second

end Reports

/-! ## What a peer does by itself -/

theorem reports_send (p : Peer) (m : SyncMessage) (now : SessionTime) :
    p.Reports ([m].filter SyncMessage.isNews) (p.send m now) := by
  have asked : (p.send m now).outlet.asked = p.outlet.asked + 1 := by
    unfold send
    split
    · exact Nat.add_right_comm _ _ _
    · exact (Nat.add_assoc _ _ _).symm
  have finals : (p.send m now).finalFrames = p.finalFrames := congrArg Stance.finals (p.stance_send m now)
  refine ⟨[(now, .send m)], ⟨?_, congrArg Stance.link (p.stance_send m now), asked, fun f mem => ?_⟩, rfl⟩
  · exact fun c mem => List.mem_singleton.mp mem ▸ rfl
  · exact Or.inl (finals ▸ mem)

/-- A message that is about the session or the link is no news. -/
theorem reports_signal (p : Peer) {m : SyncMessage} (signal : m.isNews = false) (now : SessionTime) :
    p.Reports [] (p.send m now) := by
  have none : [m].filter SyncMessage.isNews = [] := List.filter_cons_of_neg (ne_true_of_eq_false signal)
  exact none ▸ p.reports_send m now

theorem reports_sends (messages : List SyncMessage) (now : SessionTime) (p : Peer) :
    p.Reports (messages.filter SyncMessage.isNews) (messages.foldl (fun q m => q.send m now) p) := by
  induction messages generalizing p with
  | nil => exact .refl p
  | cons m rest ih =>
    rw [← List.singleton_append, List.filter_append]
    exact (p.reports_send m now).trans (ih (p.send m now))

theorem reports_conclude (p : Peer) (now : SessionTime) : p.Reports [] (p.conclude now) :=
  .silent (c := .close) rfl rfl rfl rfl rfl

theorem reports_pause (p : Peer) : p.Reports [] p.pause := by
  unfold pause
  split
  · exact .refl p
  · exact (reports_signal _ rfl _).after (.of_eq rfl)

theorem reports_resume (p : Peer) : p.Reports [] p.resume := by
  unfold resume
  split
  · exact .refl p
  · exact (reports_signal _ rfl _).after (.of_eq rfl)

theorem reports_terminate (p : Peer) : p.Reports [] p.terminate := by
  unfold terminate
  split
  · exact .refl p
  · have told := p.reports_signal (m := .finish) rfl p.now
    refine told.still ⟨[(p.now, .drainOutbound), (p.now, .close)], ⟨?_, rfl, rfl, fun f mem => ?_⟩, rfl⟩
    · simp [LinkCall.isOwn]
    · exact (List.mem_append.mp mem).imp_right fun fetched => List.mem_append_left _ fetched

theorem reports_maybeStart (p : Peer) (now : SessionTime) : p.Reports [] (p.maybeStart now) := by
  unfold maybeStart
  split
  · exact .refl p
  · exact (reports_signal _ rfl _).after (.of_eq rfl)

/-- All the messages that an own input leads to are news. -/
theorem isNews_outgoing (p : Peer) (payload : InputPayload) (now : SessionTime) :
    (p.outgoing payload now).filter SyncMessage.isNews = p.outgoing payload now := by
  unfold outgoing
  rcases p.reconciler.messages_onLocalInput p.battery (.captured p.config.localId now payload) now with
    none | ⟨stamp, changes, messages, -⟩
  · rw [none]
    rfl
  · rw [messages]
    rfl

theorem reports_applyInput (p : Peer) (payload : InputPayload) (now : SessionTime) :
    p.Reports (p.outgoing payload now) (p.applyInput payload now) := by
  rw [← p.isNews_outgoing payload now]
  exact (reports_sends _ now _).after (.of_eq rfl)

/-- The messages that own inputs lead to, one after the other. -/
def outgoingAll (now : SessionTime) : List InputPayload → Peer → List SyncMessage
  | [], _ => []
  | payload :: rest, p => p.outgoing payload now ++ outgoingAll now rest (p.applyInput payload now)

theorem reports_applyInputs (now : SessionTime) (inputs : List InputPayload) (p : Peer) :
    p.Reports (outgoingAll now inputs p) (inputs.foldl (fun q payload => q.applyInput payload now) p) := by
  induction inputs generalizing p with
  | nil => exact .refl p
  | cons payload rest ih => exact (p.reports_applyInput payload now).trans (ih _)

/-- The messages that the inputs which wait at a peer lead to.  While the session is not running there are none. -/
def answersOwn (p : Peer) (now : SessionTime) : List SyncMessage :=
  if p.phase ≠ .running then [] else outgoingAll now p.pendingInputs.toList { p with pendingInputs := .empty }

theorem reports_applyLocalInputs (p : Peer) (now : SessionTime) :
    p.Reports (p.answersOwn now) (p.applyLocalInputs now) := by
  unfold applyLocalInputs answersOwn
  by_cases running : p.phase = .running
  · rw [if_neg (not_not_intro running)]
    dsimp only
    rw [if_neg (not_not_intro running)]
    exact (reports_applyInputs now _ _).after (.of_eq rfl)
  · rw [if_pos running]
    dsimp only
    rw [if_pos running]
    exact .of_eq rfl

/-! ## Commands, messages of the other peer, and the timers -/

theorem reports_onSessionCommand (p : Peer) (c : SessionCommand) (now : SessionTime) :
    p.Reports [] (p.onSessionCommand c now) := by
  cases c with
  | finish => exact p.reports_terminate
  | pause => exact p.reports_pause
  | resume => exact p.reports_resume
  | log | showLabels | allowEscape | allowAltF4 => exact .of_eq rfl

theorem reports_runCommand (p : Peer) (c : ScenarioCommand) (now : SessionTime) :
    p.Reports [] (p.runCommand c now) := by
  unfold runCommand
  dsimp only
  split
  · exact .of_eq rfl
  · exact (reports_onSessionCommand _ _ now).after (.of_eq rfl)
  · exact .of_eq rfl

theorem reports_runCommands (now : SessionTime) (commands : List ScenarioCommand) (p : Peer) :
    p.Reports [] (p.runCommands now commands) := by
  induction commands generalizing p with
  | nil => exact .refl p
  | cons c rest ih =>
    unfold runCommands
    dsimp only
    split
    · exact p.reports_runCommand c now
    · exact (p.reports_runCommand c now).still (ih _)

theorem reports_dispatchScenario (p : Peer) (now : SessionTime) : p.Reports [] (p.dispatchScenario now) := by
  unfold dispatchScenario
  split
  · exact .refl p
  · split
    · exact .of_eq rfl
    · exact (reports_runCommands now _ _).after (.of_eq rfl)

theorem reports_onControl (p : Peer) (m : SyncMessage) : p.Reports [] (p.onControl m) := by
  cases m with
  | start | pause | resume =>
    dsimp only [onControl, onStart, onPause, onResume]
    split <;> exact .of_eq rfl
  | finish =>
    dsimp only [onControl]
    split
    · exact .refl p
    · exact p.reports_conclude p.now
  | delta | forward | heartbeat | hello => exact .refl p

theorem reports_reconcile (p : Peer) (m : SyncMessage) : p.Reports [] (p.reconcile m) := by
  unfold reconcile
  cases m.writeTime? with
  | none | some time =>
    dsimp only
    split
    · exact .of_eq rfl
    · exact .of_eq rfl
    · exact .of_eq rfl
    · exact .of_eq rfl
    · exact (reports_onControl _ _).after (.of_eq rfl)

theorem reports_releaseUpTo (limit : Nat) (p : Peer) : p.Reports [] (releaseUpTo limit p) := by
  induction limit generalizing p with
  | zero => exact .refl p
  | succ limit ih =>
    unfold releaseUpTo
    cases p.held with
    | nil => exact .refl p
    | cons m rest =>
      have taken : p.Reports [] { p with held := rest } := .of_eq rfl
      dsimp only
      split
      · exact .refl p
      · exact (taken.still (reports_reconcile _ m)).still (ih _)

theorem reports_expireRounds (p : Peer) (now : SessionTime) : p.Reports [] (p.expireRounds now) := by
  unfold expireRounds
  split <;> exact .of_eq rfl

theorem reports_flushLog (p : Peer) (now : SessionTime) : p.Reports [] (p.flushLog now) := .of_eq rfl

theorem reports_runLinkTimers (p : Peer) (now : SessionTime) : p.Reports [] (p.runLinkTimers now) := by
  have ticked : ∀ {link : Link} {result : Except Fault Unit}, p.link.tick now = (link, result) →
      link = p.link.call now .tick := fun same => (congrArg Prod.fst same).symm
  unfold runLinkTimers
  split
  · exact .silent (ticked ‹_›) rfl rfl rfl rfl
  · dsimp only
    split <;> exact .silent (ticked ‹_›) rfl rfl rfl rfl
  · exact .silent (ticked ‹_›) rfl rfl rfl rfl

end Peer

/-- **A deed calls the link**, or leaves it alone. -/
theorem Deed.calls {cause : Cause} {a b : Moment} (h : Deed cause a b) : a.peer.Calls b.peer := by
  cases h with
  | @heeds p m rest => exact .trans (.of_eq rfl) (Peer.reports_reconcile { p with held := rest } m).calls
  | attends p now => exact (p.reports_applyLocalInputs now).calls
  | withholds | handsOut | flushes => exact .of_eq rfl
  | runs p c rest now => exact (p.reports_runCommand c now).calls
  | expires p now => exact (p.reports_expireRounds now).calls
  | ticks p now => exact (p.reports_runLinkTimers now).calls

theorem Path.calls {a b : Moment} {l : List (Cause × Peer)} (h : Path a l b) : a.peer.Calls b.peer :=
  h.preserves (R := fun a b => a.peer.Calls b.peer) (fun a => .refl a.peer) .trans Deed.calls

/-! ## Whole actions -/

namespace Peer

theorem calls_applyLocalInputs (p : Peer) (now : SessionTime) : p.Calls (p.applyLocalInputs now) :=
  (p.reports_applyLocalInputs now).calls

/-- What has come is fetched. -/
theorem reports_received (p : Peer) : p.Reports [] p.received :=
  .silent (t := p.now) (c := .drainInbound) rfl rfl rfl rfl rfl

theorem calls_received (p : Peer) : p.Calls p.received := p.reports_received.calls

theorem reports_heard (p : Peer) : p.Reports [] p.heard :=
  p.reports_received.still (reports_releaseUpTo p.received.held.length p.received)

theorem calls_heard (p : Peer) : p.Calls p.heard := p.reports_heard.calls

theorem reports_dispatched (p : Peer) : p.Reports (p.heard.answersOwn p.heard.now) p.dispatched :=
  ((p.heard.reports_applyLocalInputs p.heard.now).after p.reports_heard).still (reports_dispatchScenario _ _)

theorem calls_dispatched (p : Peer) : p.Calls p.dispatched := p.reports_dispatched.calls

/-- The news that an action leads to: in a step, what the own inputs come to. -/
def news (p : Peer) : PeerAction → List SyncMessage
  | .step dt => (p.advanced dt).heard.answersOwn (p.advanced dt).heard.now
  | _ => []

theorem reports_run (p : Peer) : p.Reports (p.heard.answersOwn p.heard.now) p.run := by
  rw [run_eq]
  have released := p.reports_dispatched.still (reports_releaseUpTo p.dispatched.held.length p.dispatched)
  have expired := released.still (reports_expireRounds _ p.heard.now)
  have timed := expired.still (reports_runLinkTimers _ p.heard.now)
  exact timed.still (reports_flushLog _ _)

/-- **What an action reports**, once the link has taken the frame that the action brings. -/
theorem reports_perform (p : Peer) (action : PeerAction) :
    (p.noted action).Reports (p.news action) (p.perform action) := by
  cases action with
  | step dt =>
    rw [perform_step]
    exact (p.advanced dt).reports_run.after (.of_eq rfl)
  | submit | drainNotifications => exact .of_eq rfl
  | pause => exact p.reports_pause
  | resume => exact p.reports_resume
  | terminate => exact p.reports_terminate
  | escape =>
    rw [perform_escape]
    split
    · exact p.reports_terminate
    · exact .refl p
  | pollTransmit =>
    refine ⟨[(p.now, .drainOutbound)], ⟨?_, rfl, rfl, fun f mem => absurd mem List.not_mem_nil⟩, rfl⟩
    exact fun c mem => List.mem_singleton.mp mem ▸ rfl
  | requeueOutbound => exact .silent (p := p) (c := .requeue) rfl rfl rfl rfl rfl
  | transport e =>
    cases e with
    | connected epoch address => exact .silent (p := p) (c := .connected) rfl rfl rfl rfl rfl
    | frame epoch f =>
      rw [noted, perform_frame]
      split
      · exact reports_maybeStart _ _
      · exact .of_eq rfl
    | disconnected epoch reason =>
      rw [perform_disconnected]
      split
      · exact .silent (c := .disconnected) rfl rfl rfl rfl rfl
      · exact .refl p

/-- **An action calls the link**, or leaves it alone, once the link has taken the frame that the action brings. -/
theorem calls_perform (p : Peer) (action : PeerAction) : (p.noted action).Calls (p.perform action) :=
  (p.reports_perform action).calls

/-! ## Whole runs -/

/-- The link may have been called with a frame that has come. -/
theorem link_noted (p : Peer) (action : PeerAction) :
    (p.noted action).link = p.link ∨ ∃ f, (p.noted action).link = p.link.call p.now (.frame f) := by
  unfold noted
  split
  · split
    · exact Or.inr ⟨_, p.link_took _⟩
    · exact Or.inl rfl
  · exact Or.inl rfl

/-- **Who is at the other end** does not change any more, whatever is done. -/
theorem known_perform (p : Peer) (action : PeerAction) {x : ParticipantId} (known : p.link.remote = some x) :
    (p.perform action).link.remote = some x := by
  rw [(p.calls_perform action).keeps.2]
  rcases p.link_noted action with same | ⟨f, taken⟩
  · rw [same, known]
  · rw [taken]
    exact (p.link.turns_call p.now (.frame f)).keeps.2 x known

theorem settings_perform (p : Peer) (action : PeerAction) : (p.perform action).link.config = p.link.config := by
  rw [(p.calls_perform action).keeps.1]
  rcases p.link_noted action with same | ⟨f, taken⟩
  · rw [same]
  · rw [taken]
    exact (p.link.turns_call p.now (.frame f)).keeps.1

/-- The settings of the link are those of the configuration in every run. -/
theorem settings_performAll (config : PeerConfig) (commands : List ScenarioCommand) (actions : List PeerAction) :
    ((Peer.new config commands).performAll actions).link.config = config.link.linkConfig :=
  performAll_keeps (P := fun p => p.link.config = config.link.linkConfig)
    (fun {p} before action => (p.settings_perform action).trans before) actions rfl

theorem sound_noted (p : Peer) (before : p.link.standing.Sound) (action : PeerAction) :
    (p.noted action).link.standing.Sound := by
  rcases p.link_noted action with same | ⟨f, taken⟩
  · exact same ▸ before
  · exact taken ▸ (p.link.turns_call p.now (.frame f)).sound before

theorem sound_perform (p : Peer) (before : p.link.standing.Sound) (action : PeerAction) :
    (p.perform action).link.standing.Sound :=
  (p.calls_perform action).sound (p.sound_noted before action)

theorem sound_performAll (config : PeerConfig) (commands : List ScenarioCommand) (actions : List PeerAction) :
    ((Peer.new config commands).performAll actions).link.standing.Sound :=
  performAll_keeps (P := fun p => p.link.standing.Sound) (fun {p} before action => p.sound_perform before action)
    actions (Link.sound_new _ _ _)

end Peer

end Tandem
