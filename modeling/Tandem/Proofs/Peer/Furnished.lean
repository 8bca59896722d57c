import Tandem.Proofs.Peer.Mirrors
import Tandem.Proofs.Peer.News
import Tandem.Proofs.Task.Furnishing
/-!
# The fields of two peers

A peer writes what its script says, what its inputs come to and what the other peer tells it.  The script is one that
has been loaded, so what it writes suits its fields; so does what comes of inputs, and that is all that a peer tells of
the tasks (`Peer.news`).  So a peer that is told only what suits tells only what suits.

In a *couple* two peers have each other for a partner, and whatever one of them is handed the other one has sent at some
time.  Nothing is said of the order, of how often and over which connection a frame comes.  Throughout every run of a
couple both peers have the fields of their tasks, and no others but those that are added for the two participants
(`furnished_throughout`).
-/

namespace Tandem

theorem SyncMessage.Sane.arrived {crew : List ParticipantId} {m : SyncMessage} (h : m.Sane crew) :
    m.arrived.Sane crew := by
  cases m with
  | forward => rfl
  | delta | heartbeat | hello | start | pause | resume | finish => exact h

/-- It depends on the tasks and the participants only. -/
theorem Battery.Furnished.alike {crew : List ParticipantId} {b b' : Battery} (h : b.Furnished crew)
    (same : b.Alike b') : b'.Furnished crew where
  tasks t := same.read t ▸ h.tasks t
  participants := same.matching ▸ h.participants
  present t key start := by
    rw [Battery.cell?, ← same.read t]
    exact h.present t key start
  suits t key held found := by
    rw [Battery.cell?, ← same.read t] at found
    exact h.suits t key held found

namespace Peer

variable {p q : Peer}

/-! ## One thing after the other -/

/-- A peer of a crew with furnished tasks, which writes as one of the crew. -/
structure Furnished (crew : List ParticipantId) (p : Peer) : Prop where
  battery : p.battery.Furnished crew
  writer : p.reconciler.clock.writer ∈ crew
  here : p.config.localId ∈ crew
  there : p.config.remoteId ∈ crew

namespace Furnished

variable {crew : List ParticipantId}

theorem of_desk (h : p.Furnished crew) (same : q.desk = p.desk) : q.Furnished crew := by
  have battery := h.battery.alike (alike_of_desk same)
  simp only [desk, Prod.mk.injEq] at same
  obtain ⟨config, reconciler, -⟩ := same
  exact ⟨battery, reconciler ▸ h.writer, config ▸ h.here, config ▸ h.there⟩

/-- **A sane message** is reconciled. -/
theorem reconcile (h : p.Furnished crew) {m : SyncMessage} (sane : m.Sane crew) : (p.reconcile m).Furnished crew := by
  have told := h.battery.onRemoteMessage p.reconciler h.there sane
  have writer := (p.reconciler.onward_onRemoteMessage p.battery p.config.remoteId m).1
  refine of_desk ?_ (p.desk_reconcile m)
  exact ⟨told, writer ▸ h.writer, h.here, h.there⟩

/-- **An own input** is applied, and what is told of it is sane. -/
theorem applyInput (h : p.Furnished crew) (payload : InputPayload) (now : SessionTime) :
    (p.applyInput payload now).Furnished crew ∧ ∀ m ∈ p.outgoing payload now, m.Sane crew := by
  obtain ⟨furnished, sane⟩ :=
    h.battery.onLocalInput h.writer (e := .captured p.config.localId now payload) rfl h.here now
  have clock := (p.reconciler.onLocalInput_outcome p.battery (.captured p.config.localId now payload) now).1
  have writer := (p.reconciler.clock.writer_issue now).2
  refine ⟨of_desk ?_ (p.desk_applyInput payload now), sane⟩
  exact ⟨furnished, clock ▸ writer.symm ▸ h.writer, h.here, h.there⟩

theorem applyInputs (now : SessionTime) (inputs : List InputPayload) (h : p.Furnished crew) :
    (inputs.foldl (fun q payload => q.applyInput payload now) p).Furnished crew ∧
      ∀ m ∈ outgoingAll now inputs p, m.Sane crew := by
  induction inputs generalizing p with
  | nil => exact ⟨h, List.forall_mem_nil _⟩
  | cons payload rest ih =>
    obtain ⟨next, sane⟩ := h.applyInput payload now
    obtain ⟨last, sane'⟩ := ih next
    exact ⟨last, List.forall_mem_append.mpr ⟨sane, sane'⟩⟩

theorem applyLocalInputs (h : p.Furnished crew) (now : SessionTime) :
    (p.applyLocalInputs now).Furnished crew ∧ ∀ m ∈ p.answersOwn now, m.Sane crew := by
  have taken : Furnished crew { p with pendingInputs := .empty } := h.of_desk rfl
  unfold Peer.applyLocalInputs answersOwn
  by_cases running : p.phase = .running
  · dsimp only
    rw [if_neg (not_not_intro running), if_neg (not_not_intro running)]
    exact taken.applyInputs now _
  · dsimp only
    rw [if_pos running, if_pos running]
    exact ⟨taken.of_desk rfl, List.forall_mem_nil _⟩

/-- **A command** is run that asks of its task what the task has. -/
theorem runCommand (h : p.Furnished crew) {c : ScenarioCommand} (allowed : c.payload.isAllowed = true)
    (known : c.SetsKnown) (now : SessionTime) : (p.runCommand c now).Furnished crew := by
  have writer := p.reconciler.clock.writer_observe c.stamp
  refine of_desk ?_ (p.desk_runCommand c now)
  exact ⟨h.battery.run allowed known, writer.symm ▸ h.writer, h.here, h.there⟩

theorem expireRounds (h : p.Furnished crew) (now : SessionTime) : (p.expireRounds now).Furnished crew := by
  unfold Peer.expireRounds
  split
  · exact h
  · exact ⟨h.battery.expireRounds _, h.writer, h.here, h.there⟩

theorem new {config : PeerConfig} (here : config.localId ∈ crew) (there : config.remoteId ∈ crew)
    (commands : List ScenarioCommand) : (Peer.new config commands).Furnished crew := by
  refine ⟨.new _ fun p mem => ?_, here, here, there⟩
  simp only [PeerConfig.participants] at mem
  split at mem
  all_goals
    simp only [List.mem_cons, List.not_mem_nil, or_false] at mem
    rcases mem with rfl | rfl
    · assumption
    · assumption

end Furnished

end Peer

/-! ## Steps -/

/-- What is held after a deed was held before. -/
theorem Deed.held_suffix {cause : Cause} {a b : Moment} (h : Deed cause a b) : b.peer.held <:+ a.peer.held := by
  obtain ⟨told, turn⟩ := h.turn
  cases turn with
  | heeds _ held => exact held ▸ List.suffix_cons _ _
  | goesOn goes => exact goes.held
  | obeys _ _ turned => exact turned.held ▸ List.suffix_refl _

/-- A furnished peer, with what it is still to take up within a step. -/
structure Moment.Furnished (crew : List ParticipantId) (a : Moment) : Prop where
  peer : a.peer.Furnished crew
  held : ∀ m ∈ a.peer.held, m.Sane crew
  allowed : ∀ c ∈ a.ahead, c.payload.isAllowed = true ∧ c.SetsKnown

variable {crew : List ParticipantId}

/-- **Whatever a peer does in a step** leaves it furnished. -/
theorem Deed.furnished {cause : Cause} {a b : Moment} (h : Deed cause a b) (before : a.Furnished crew) :
    b.Furnished crew := by
  -- Nothing comes to what is held or to the commands ahead, so only the peer itself is to be looked at.
  have held := h.held_suffix
  have ahead := h.shortens
  refine ⟨?_, fun m mem => before.held m (held.subset mem), fun c mem => before.allowed c (ahead.subset mem)⟩
  have peer := before.peer
  cases h with
  | @heeds p m rest first =>
    have taken : Peer.Furnished crew { p with held := rest } := peer.of_desk rfl
    exact taken.reconcile (before.held m (first ▸ List.mem_cons_self))
  | attends p now => exact (peer.applyLocalInputs now).1
  | withholds | handsOut | flushes => exact peer.of_desk rfl
  | runs p c rest now =>
    obtain ⟨allowed, known⟩ := before.allowed c List.mem_cons_self
    exact peer.runCommand allowed known now
  | expires p now => exact peer.expireRounds now
  | ticks p now => exact peer.of_desk (p.desk_runLinkTimers now)

/-- So do all the deeds of a step, one after the other. -/
theorem Path.furnished {a b : Moment} {l : List (Cause × Peer)} (h : Path a l b) (before : a.Furnished crew) :
    b.Furnished crew ∧ ∀ x ∈ l, x.2.Furnished crew := by
  induction h with
  | nil => exact ⟨before, List.forall_mem_nil _⟩
  | cons deed _ ih =>
    have next := deed.furnished before
    obtain ⟨after, later⟩ := ih next
    exact ⟨after, List.forall_mem_cons.mpr ⟨next.peer, later⟩⟩

/-! ## Actions -/

/-- Between two actions: a furnished peer, and its link has only sane messages, those it sends and those that have
come. -/
structure Peer.Poised (crew : List ParticipantId) (p : Peer) : Prop where
  moment : Moment.Furnished crew ⟨p, []⟩
  bears : p.Bears (·.Sane crew) (·.Sane crew)

namespace Peer.Poised

variable {p : Peer}

/-- When a step begins, what has come is fetched. -/
theorem fetched (h : p.Poised crew) (dt : Duration) : Moment.Furnished crew ⟨(p.advanced dt).received, []⟩ where
  peer := h.moment.peer.of_desk rfl
  held := List.forall_mem_append.mpr ⟨h.moment.held, h.bears.link.drainInbound.1⟩
  allowed := h.moment.allowed

/-- What is told about the tasks is sane. -/
theorem news (h : p.Poised crew) (action : PeerAction) : ∀ m ∈ p.news action, m.Sane crew := by
  cases action with
  | step dt =>
    have heard := ((p.advanced dt).path_heard.furnished (h.fetched dt)).1
    exact (heard.peer.applyLocalInputs _).2
  | submit | pause | resume | terminate | escape | transport | pollTransmit | requeueOutbound | drainNotifications =>
    exact List.forall_mem_nil _

/-- **An action** leaves a peer furnished throughout, if a frame that it brings is sane. -/
theorem perform (h : p.Poised crew) (action : PeerAction)
    (comes : ∀ epoch f, action = .transport (.frame epoch f) → f.Tells (·.Sane crew)) :
    (p.perform action).Poised crew ∧ ∀ x ∈ p.moments action, x.2.Furnished crew := by
  -- What is told of the tasks comes of own inputs, and any other message says nothing of them.
  have bears : (p.perform action).Bears (·.Sane crew) (·.Sane crew) :=
    h.bears.perform action comes (fun m mem => (h.news action m mem).arrived)
      fun m signal => (SyncMessage.sane_of_signal crew signal).arrived
  rcases action.step_cases with ⟨dt, rfl⟩ | notStep
  · have path := (p.advanced dt).path_stages
    rw [← perform_step] at path
    obtain ⟨after, within⟩ := path.furnished (h.fetched dt)
    exact ⟨⟨after, bears⟩, within⟩
  · have peer := h.moment.peer.of_desk (p.desk_perform notStep)
    have held : (p.perform action).held <:+ p.held := by
      obtain ⟨q, told, hears, goes | ⟨m, turned, -⟩⟩ := p.turn_perform notStep
      · exact hears.same.2.2.1 ▸ goes.held
      · exact turned.held.trans hears.same.2.2.1 ▸ List.suffix_refl _
    have after : Moment.Furnished crew ⟨p.perform action, []⟩ :=
      ⟨peer, fun m mem => h.moment.held m (held.subset mem),
        fun c mem => h.moment.allowed c ((p.shortens_perform action).subset mem)⟩
    rw [p.moments_of_notStep notStep]
    exact ⟨⟨after, bears⟩, List.forall_mem_singleton.mpr peer⟩

/-- The frames that a peer yields are sane. -/
theorem yields (h : p.Poised crew) (action : PeerAction) : ∀ f ∈ p.yields action, f.Tells (·.Sane crew) := by
  cases action with
  | pollTransmit => exact h.bears.transmits
  | step | submit | pause | resume | terminate | escape | transport | requeueOutbound | drainNotifications =>
    exact List.forall_mem_nil _

/-- A peer whose script has been loaded, before its first connection. -/
theorem new {config : PeerConfig} {text : String} {commands : List ScenarioCommand} (here : config.localId ∈ crew)
    (there : config.remoteId ∈ crew) (loaded : loadScenario config text = .ok commands) :
    (Peer.new config commands).Poised crew where
  moment := by
    refine ⟨.new here there commands, List.forall_mem_nil _, fun c mem => ?_⟩
    have listed : c ∈ commands := (List.mergeSort_perm commands _).mem_iff.mp mem
    obtain ⟨line, reading⟩ := Scenario.exists_readsAs_of_load loaded c listed
    exact ⟨Scenario.isAllowed_of_load loaded c listed, reading.2⟩
  bears := .new config commands

end Peer.Poised

/-! ## Couples -/

/-- Two peers, and all the frames that each of them has sent. -/
structure Couple where
  peers : Ends Peer
  sent : Ends (List Frame)

/-- What may happen in a couple. -/
inductive CoupleMove where
  /-- Anything happens to a peer but that a frame comes. -/
  | own (r : Role) (action : PeerAction) (frameless : ∀ epoch f, action ≠ .transport (.frame epoch f))
  /-- A frame comes to a peer over some connection: the `n`-th of those that the other peer has sent. -/
  | comes (r : Role) (epoch : UInt64) (n : Nat)

namespace Couple

/-- Two peers before their first connection. -/
def start (configs : Ends PeerConfig) (scripts : Ends (List ScenarioCommand)) : Couple :=
  ⟨⟨.new configs.host scripts.host, .new configs.guest scripts.guest⟩, ⟨[], []⟩⟩

/-- The peer at an end. -/
def peer (x : Couple) (r : Role) : Peer := x.peers.get r

/-- Something happens to the peer at an end. -/
def act (x : Couple) (r : Role) (action : PeerAction) : Couple :=
  ⟨x.peers.set r ((x.peer r).perform action), x.sent.set r (x.sent.get r ++ (x.peer r).yields action)⟩

/-- The action of a move, and the peer to which it happens. -/
def action? (x : Couple) : CoupleMove → Option (Role × PeerAction)
  | .own r action _ => some (r, action)
  | .comes r epoch n => (x.sent.get r.other)[n]?.map fun f => (r, .transport (.frame epoch f))

/-- The couple after a move. -/
def move (x : Couple) (m : CoupleMove) : Couple :=
  match x.action? m with
  | some (r, action) => x.act r action
  | none => x

/-- The peers that an end goes through in a move. -/
def moments (x : Couple) (r : Role) (m : CoupleMove) : List Peer :=
  match x.action? m with
  | some (s, action) => if s = r then ((x.peer r).moments action).map Prod.snd else []
  | none => []

/-- The peers that an end goes through in a run, within the moves and between them. -/
def visits (r : Role) : Couple → List CoupleMove → List Peer
  | x, [] => [x.peer r]
  | x, m :: rest => x.peer r :: x.moments r m ++ visits r (x.move m) rest

/-- Both peers are poised, and only sane frames have been sent. -/
structure Poised (crew : List ParticipantId) (x : Couple) : Prop where
  peer : ∀ r, (x.peer r).Poised crew
  sent : ∀ r, ∀ f ∈ x.sent.get r, f.Tells (·.Sane crew)

namespace Poised

variable {x : Couple}

/-- Only a frame that has been sent comes. -/
theorem comes (h : x.Poised crew) {m : CoupleMove} {r : Role} {action : PeerAction}
    (moves : x.action? m = some (r, action)) (epoch : UInt64) (f : Frame)
    (brings : action = .transport (.frame epoch f)) : f.Tells (·.Sane crew) := by
  cases m with
  | own s a frameless =>
    cases moves
    exact absurd brings (frameless epoch f)
  | comes s e n =>
    obtain ⟨g, sent, same⟩ := Option.map_eq_some_iff.mp moves
    cases same
    cases brings
    exact h.sent r.other f (List.mem_of_getElem? sent)

/-- **A move** leaves both peers furnished throughout. -/
theorem move (h : x.Poised crew) (m : CoupleMove) :
    (x.move m).Poised crew ∧ ∀ r, ∀ q ∈ x.moments r m, q.Furnished crew := by
  unfold Couple.move moments
  cases moves : x.action? m with
  | none => exact ⟨h, fun _ => List.forall_mem_nil _⟩
  | some done =>
    obtain ⟨s, action⟩ := done
    dsimp only
    obtain ⟨after, within⟩ := (h.peer s).perform action (h.comes moves)
    refine ⟨⟨?_, ?_⟩, fun r => ?_⟩
    · refine Role.forall_of s ?_ ?_
      · rwa [Couple.peer, Couple.act, Ends.get_set_self]
      · rw [Couple.peer, Couple.act, Ends.get_set_other]
        exact h.peer s.other
    · refine Role.forall_of s ?_ ?_
      · rw [Couple.act, Ends.get_set_self]
        exact List.forall_mem_append.mpr ⟨h.sent s, (h.peer s).yields action⟩
      · rw [Couple.act, Ends.get_set_other]
        exact h.sent s.other
    · split
      · rename_i same
        subst same
        exact List.forall_mem_map.mpr within
      · exact List.forall_mem_nil _

theorem visits (moves : List CoupleMove) (h : x.Poised crew) (r : Role) :
    ∀ q ∈ x.visits r moves, q.Furnished crew := by
  induction moves generalizing x with
  | nil => exact List.forall_mem_singleton.mpr (h.peer r).moment.peer
  | cons m rest ih =>
    obtain ⟨after, within⟩ := h.move m
    exact List.forall_mem_cons.mpr ⟨(h.peer r).moment.peer, List.forall_mem_append.mpr ⟨within r, ih after⟩⟩

end Poised

end Couple

/-- **The fields of two peers.**  When two peers have loaded a scenario and each has the other one for a partner, then
at every moment of every run, on both of them, each task has all the fields that it starts with, each of its type; its
other fields are those that are added for the two participants; and a network field holds one of the modes. -/
theorem furnished_throughout (configs : Ends PeerConfig) (scripts : Ends (List ScenarioCommand)) (text : String)
    (partners : ∀ r, (configs.get r).remoteId = (configs.get r.other).localId)
    (loaded : ∀ r, Peer.loadScenario (configs.get r) text = .ok (scripts.get r)) (moves : List CoupleMove) (r : Role) :
    ∀ q ∈ (Couple.start configs scripts).visits r moves, ∀ t,
      (q.store.read t).Furnished [configs.host.localId, configs.guest.localId] t := by
  have member : ∀ s, (configs.get s).localId ∈ [configs.host.localId, configs.guest.localId] := by
    intro s
    cases s with
    | host => exact List.mem_cons_self
    | guest => exact List.mem_cons_of_mem _ List.mem_cons_self
  have begins : (Couple.start configs scripts).Poised [configs.host.localId, configs.guest.localId] := by
    constructor
    · have each : ∀ s, (Peer.new (configs.get s) (scripts.get s)).Poised
          [configs.host.localId, configs.guest.localId] := fun s =>
        .new (member s) (partners s ▸ member s.other) (loaded s)
      intro s
      cases s with
      | host => exact each .host
      | guest => exact each .guest
    · intro s
      cases s <;> exact List.forall_mem_nil _
  exact fun q mem t => (begins.visits moves r q mem).battery.state t

/-! ### A light that fails -/

/-- A light fails at once. -/
def darkLight : String := "0:00:00;sysmon;start\n0:00:00;sysmon;lights-1-failure;true\n0:00:09;end"

/-- The commands of `darkLight`. -/
def darkLightCommands : List ScenarioCommand :=
  [⟨0, 0, .act (.task .monitoring) .start, 1, 0⟩, ⟨0, 0, .set (.task .monitoring) "lights-1-failure" "true", 2, 1⟩,
    ⟨9, 0, .act .session .finish, 3, 2⟩]

/-- The peers of a simulation before their first connection. -/
def darkCouple : Couple := .start ⟨.simulated .host, .simulated .guest⟩ ⟨darkLightCommands, darkLightCommands⟩

/-- The peers meet and the light fails.  The guest's participant acknowledges it, and the host hears of that. -/
def darkRun : List CoupleMove :=
  [.own .host (.transport (.connected 1 Role.guest.simulatedAddress)) nofun,
    .own .guest (.transport (.connected 1 Role.host.simulatedAddress)) nofun,
    .own .guest .pollTransmit nofun, .comes .host 1 0,
    .own .host .pollTransmit nofun, .comes .guest 1 0, .comes .guest 1 1,
    .own .guest (.step (.ofMillis 100)) nofun, .own .guest (.submit (.monitoringAck (.light 1))) nofun,
    .own .guest (.step (.ofMillis 100)) nofun, .own .guest .pollTransmit nofun,
    .own .host (.step (.ofMillis 100)) nofun, .comes .host 1 1, .comes .host 1 2,
    .own .host (.step (.ofMillis 300)) nofun]

/-- The host has then a counter for the guest's participant, and all its fields as they should be. -/
theorem furnished_throughout_darkRun : ∃ q ∈ darkCouple.visits .host darkRun,
    (q.store.read .monitoring).get? (TaskState.hitKey ⟨2⟩) = some (.int 1) ∧
      ∀ t, (q.store.read t).Furnished [⟨1⟩, ⟨2⟩] t := by
  have counted : ∃ q ∈ darkCouple.visits .host darkRun,
      (q.store.read .monitoring).get? (TaskState.hitKey ⟨2⟩) = some (.int 1) := by
    have sorted : darkLightCommands.Pairwise (fun a b => a.precedes b = true) := by decide
    have begins : darkCouple = ⟨⟨.new (.simulated .host) darkLightCommands, .new (.simulated .guest) darkLightCommands⟩,
      ⟨[], []⟩⟩ := rfl
    rw [begins, Peer.new_of_sorted (.simulated .host) sorted, Peer.new_of_sorted (.simulated .guest) sorted]
    decide +kernel
  obtain ⟨q, mem, count⟩ := counted
  have loaded : ∀ role, Peer.loadScenario (.simulated role) darkLight = .ok darkLightCommands := by
    intro role
    cases role <;> decide +kernel
  refine ⟨q, mem, count, ?_⟩
  refine furnished_throughout _ _ darkLight (fun role => ?_) (fun role => ?_) darkRun .host q mem
  · cases role <;> rfl
  · cases role
    · exact loaded .host
    · exact loaded .guest

end Tandem
