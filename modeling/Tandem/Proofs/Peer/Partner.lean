import Tandem.Proofs.Peer.Calls
import Tandem.Proofs.Peer.Held
import Tandem.Proofs.Peer.Phases
/-!
# Whom a session runs with

The configuration of a peer names the participant at the other peer, but the link does not ask for them.  Whoever says
hello first is at the other end from then on, a host starts the session with them, and the values that they send go to
the tasks; only a forwarded input is compared with the configuration (`Peer.misattributed_reconcile`).

So a session keeps to its partner as long as nobody else introduces themselves on the connection (`Peer.MeetsIn`).  For
a host that is also necessary, since it starts with whoever does.  The one other way for a host to run is that it is
told to start, which no guest does.
-/

namespace Tandem

namespace Link

/-- Who introduces themselves in a frame that a link takes. -/
def introduces? (l : Link) (f : Frame) : Option ParticipantId :=
  if f.header.session = l.session ∧ l.state ≠ .closed ∧ f.seq = unsequenced then
    match f.message with
    | .ok (.hello participant _) => some participant
    | _ => none
  else none

variable {l : Link}

/-- A link that does not know the other end believes whoever introduces themselves. -/
theorem introduced (unknown : l.remote = none) (f : Frame) (now : SessionTime) :
    (l.onFrame f now).1.remote = l.introduces? f ∧
      ((l.introduces? f).isSome = true → (l.onFrame f now).1.state = .established) := by
  have nobody : (l.onFrame f now).1.remote = none → l.introduces? f = none →
      (l.onFrame f now).1.remote = l.introduces? f ∧
        ((l.introduces? f).isSome = true → (l.onFrame f now).1.state = .established) := fun still none =>
    ⟨still.trans none.symm, fun isSome => by rw [none] at isSome; cases isSome⟩
  by_cases session : f.header.session = l.session
  · cases l.handles_onFrame f now with
    | aside bond _ _ unmet =>
      refine nobody ((congrArg LinkBond.remote bond).trans unknown) ?_
      unfold introduces?
      split
      · rename_i taken
        split
        · rename_i participant resumeFrom carried
          have believed : (l.onFrame f now).2 = .ok () := by
            rw [onFrame_eq session taken.2.1 carried, if_pos taken.2.2]
            unfold onLinkMessage
            rw [show (l.heard f.header.ack now).remote = none from unknown]
            rfl
          exact absurd believed (unmet taken.2.1 taken.2.2 participant resumeFrom carried)
        · rfl
      · rfl
    | unreadable bond _ carried =>
      refine nobody ((congrArg LinkBond.remote bond).trans unknown) ?_
      unfold introduces?
      rw [carried]
      exact ite_self _
    | @greeted participant _ isOpen outside carried established bond =>
      have name : l.introduces? f = some participant := by
        unfold introduces?
        rw [if_pos ⟨session, isOpen, outside⟩, carried]
      exact ⟨(congrArg LinkBond.remote bond).trans name.symm, fun _ => established⟩
    | gap _ numbered _ bond =>
      refine nobody ((congrArg LinkBond.remote bond).trans unknown) ?_
      exact if_neg fun taken => numbered taken.2.2
  · have foreign : (l.onFrame f now).1 = l := by
      unfold onFrame
      rw [if_pos session]
    exact nobody ((congrArg Link.remote foreign).trans unknown) (if_neg fun taken => session taken.1)

end Link

namespace Peer

variable {p q : Peer} {partner : ParticipantId}

/-! ## Introductions -/

/-- In an action nobody but a partner introduces themselves to a peer that does not know the other end yet. -/
def Meets (partner : ParticipantId) (p : Peer) : PeerAction → Prop
  | .transport (.frame epoch f) => p.epoch = some epoch → p.link.remote = none → ∀ x ∈ p.link.introduces? f, x = partner
  | _ => True

instance decidableMeets (partner : ParticipantId) (p : Peer) :
    (action : PeerAction) → Decidable (p.Meets partner action)
  | .transport (.frame epoch f) => inferInstanceAs
      (Decidable (p.epoch = some epoch → p.link.remote = none → ∀ x ∈ p.link.introduces? f, x = partner))
  | .transport (.connected ..) | .transport (.disconnected ..) | .step _ | .submit _ | .pause | .resume | .terminate
  | .escape | .pollTransmit | .requeueOutbound | .drainNotifications => inferInstanceAs (Decidable True)

/-- In a run nobody but a partner introduces themselves. -/
def MeetsIn (partner : ParticipantId) : Peer → List PeerAction → Prop
  | _, [] => True
  | p, action :: rest => p.Meets partner action ∧ MeetsIn partner (p.perform action) rest

instance decidableMeetsIn (partner : ParticipantId) (p : Peer) :
    (actions : List PeerAction) → Decidable (p.MeetsIn partner actions)
  | [] => inferInstanceAs (Decidable True)
  | action :: rest =>
    have := decidableMeetsIn partner (p.perform action) rest
    inferInstanceAs (Decidable (p.Meets partner action ∧ MeetsIn partner (p.perform action) rest))

/-- A peer does not know the other end, or it is the partner. -/
def Acquainted (partner : ParticipantId) (p : Peer) : Prop := ∀ x ∈ p.link.remote, x = partner

theorem Acquainted.perform (h : p.Acquainted partner) {action : PeerAction} (meets : p.Meets partner action) :
    (p.perform action).Acquainted partner := by
  intro x same
  cases remote : p.link.remote with
  | some known =>
    rw [p.known_perform action remote] at same
    exact h x (remote.trans same)
  | none =>
    -- Only a frame of the current connection tells who it is.
    have unknown : p.link.remote ≠ some x := by
      rw [remote]
      exact nofun
    rw [(p.calls_perform action).keeps.2] at same
    unfold noted at same
    split at same
    · split at same
      · rename_i current
        rw [link_took, (Link.introduced remote _ p.now).1] at same
        exact meets current remote x same
      · exact absurd same unknown
    · exact absurd same unknown

/-- **Who is at the other end** in a run in which nobody but a partner introduces themselves. -/
theorem MeetsIn.acquainted {actions : List PeerAction} {p : Peer} (meets : p.MeetsIn partner actions)
    (before : p.Acquainted partner) {earlier : List PeerAction} (among : earlier <+: actions) :
    (p.performAll earlier).Acquainted partner := by
  induction actions generalizing p earlier with
  | nil => exact List.prefix_nil.mp among ▸ before
  | cons action rest ih =>
    rcases List.prefix_cons_iff.mp among with rfl | ⟨earlier, rfl, within⟩
    · exact before
    · exact ih meets.2 (before.perform meets.1) within

/-- If nobody else does in any of its actions, nobody does in the run. -/
theorem meetsIn_of_prefix {actions : List PeerAction} {p : Peer} (each : ∀ earlier action,
    earlier ++ [action] <+: actions → (p.performAll earlier).Meets partner action) : p.MeetsIn partner actions := by
  induction actions generalizing p with
  | nil => trivial
  | cons action rest ih =>
    refine ⟨each [] action (List.prefix_append [action] rest), ih fun earlier next among => ?_⟩
    exact each (action :: earlier) next ((List.prefix_cons_inj action).mpr among)

/-! ## Starting -/

/-- A host that does not know the other end does not start. -/
theorem maybeStart_of_unknown (sound : p.link.standing.Sound) (unknown : p.link.remote = none) (now : SessionTime) :
    p.maybeStart now = p := by
  refine if_pos (Or.inr (Or.inr fun established => ?_))
  have known : p.link.remote.isSome = true := sound.known established
  rw [unknown] at known
  cases known

/-- The session has not started, or it is over. -/
def Idle (p : Peer) : Prop := p.phase = .waiting ∨ p.isFinished = true

end Peer

theorem PeerPhase.follow_waiting {m : SyncMessage} (notStart : ∀ t, m ≠ .start t) :
    PeerPhase.waiting.follow m = .waiting := by
  cases m with
  | start t => exact absurd rfl (notStart t)
  | delta | forward | heartbeat | hello | pause | resume | finish => rfl

/-- **Without such a message** no deed starts the session. -/
theorem Deed.idle {cause : Cause} {a b : Moment} (h : Deed cause a b)
    (before : a.peer.Idle ∧ ∀ t, SyncMessage.start t ∉ a.peer.held) :
    b.peer.Idle ∧ ∀ t, SyncMessage.start t ∉ b.peer.held := by
  obtain ⟨idle, quiet⟩ := before
  have ended : a.peer.isFinished = true → b.peer.Idle := fun isOver => Or.inr (h.finished isOver)
  obtain ⟨told, turn⟩ := h.turn
  cases turn with
  | @heeds m tells held follows =>
    rw [held] at quiet
    refine ⟨idle.elim (fun waiting => Or.inl ?_) ended, fun t mem => quiet t (List.mem_cons_of_mem m mem)⟩
    rw [follows, waiting]
    exact PeerPhase.follow_waiting fun t same => quiet t (same ▸ List.mem_cons_self)
  | goesOn goes =>
    refine ⟨?_, fun t mem => quiet t (goes.held.subset mem)⟩
    rcases goes.still with isOver | ⟨-, phase⟩
    · exact Or.inr isOver
    · exact idle.elim (fun waiting => Or.inl (phase.trans waiting)) ended
  | obeys next orders turned =>
    refine ⟨idle.elim (fun waiting => Or.inl ?_) ended, fun t mem => quiet t (turned.held ▸ mem)⟩
    rw [turned.follows, waiting]
    cases orders <;> rfl

namespace Peer

variable {p q : Peer} {partner : ParticipantId}

/-- An event of the connection leaves the phase alone as long as the other end is not known. -/
theorem phase_transport (e : TransportEvent) (sound : (p.noted (.transport e)).link.standing.Sound)
    (unknown : (p.noted (.transport e)).link.remote = none) : (p.perform (.transport e)).phase = p.phase := by
  cases e with
  | connected => rfl
  | disconnected epoch reason =>
    rw [perform_disconnected]
    split <;> rfl
  | frame epoch f =>
    rw [perform_frame]
    dsimp only [noted] at sound unknown
    split
    · rename_i current
      rw [if_pos current] at sound unknown
      rw [maybeStart_of_unknown sound unknown]
      exact congrArg Stance.phase (p.stance_took f)
    · rfl

/-- **A peer that does not know the other end stays idle**, unless it is told to start. -/
theorem idle_perform (idle : p.link.remote = none → p.Idle) (sound : p.link.standing.Sound)
    (unstarted : ∀ t, SyncMessage.start t ∉ p.waiting) (action : PeerAction)
    (unknown : (p.perform action).link.remote = none) : (p.perform action).Idle := by
  have stranger : (p.noted action).link.remote = none := (p.calls_perform action).keeps.2.symm.trans unknown
  have before : p.link.remote = none := by
    cases remote : p.link.remote with
    | none => rfl
    | some known => cases unknown.symm.trans (p.known_perform action remote)
  rcases idle before with waiting | isOver
  · rcases action.step_cases with ⟨dt, rfl⟩ | notStep
    · exact (step_keeps (P := fun a => a.peer.Idle ∧ ∀ t, SyncMessage.start t ∉ a.peer.held) Deed.idle
        ⟨Or.inl waiting, unstarted⟩).1
    · have taken : (p.noted action).phase = .waiting := (p.hears_noted action).same.2.2.2.trans waiting
      obtain ⟨told, goes | ⟨m, turned, signals⟩⟩ := p.turn_noted notStep
      · exact goes.still.symm.imp (fun still => still.2.trans taken) id
      · cases signals with
        | pause | resume => exact Or.inl (by rw [turned.follows, taken]; rfl)
        | start e => exact Or.inl ((p.phase_transport e (p.sound_noted sound _) stranger).trans waiting)
  · exact Or.inr (p.finished_perform action isOver)

/-- While a peer in a run does not know the other end, it is idle. -/
def IdleIn (p : Peer) (actions : List PeerAction) : Prop :=
  ∀ earlier, earlier <+: actions → (p.performAll earlier).link.remote = none → (p.performAll earlier).Idle

/-- **If no message to start is delivered**, a peer is idle until it knows the other end. -/
theorem idleIn_of_unstarted {actions : List PeerAction} {p : Peer} (idle : p.link.remote = none → p.Idle)
    (sound : p.link.standing.Sound) (unstarted : ∀ t, SyncMessage.start t ∉ p.waiting ++ p.deliveredIn actions) :
    p.IdleIn actions := by
  intro earlier among
  induction actions generalizing p earlier with
  | nil => exact List.prefix_nil.mp among ▸ idle
  | cons action rest ih =>
    rcases List.prefix_cons_iff.mp among with rfl | ⟨earlier, rfl, within⟩
    · exact idle
    · have quiet : ∀ t, SyncMessage.start t ∉ p.waiting := fun t mem => unstarted t (List.mem_append_left _ mem)
      refine ih (p.idle_perform idle sound quiet action) (p.sound_perform sound action) (fun t mem => ?_) earlier within
      refine unstarted t ?_
      rw [deliveredIn, ← List.append_assoc]
      refine (List.mem_append.mp mem).elim (fun waits => List.mem_append_left _ ?_) (List.mem_append_right _)
      exact (p.passes_perform action).order.subset (List.mem_append_right _ waits)

/-! ## Keeping to the partner -/

/-- A peer reconciles a message in a step: `p` is the peer when the session time has been reached, `q` the peer when it
turns to the message. -/
inductive TakesUp (p : Peer) : (q : Peer) → SyncMessage → Prop where
  /-- In the first stage, after `n` other messages. -/
  | early (n : Nat) {m : SyncMessage} {rest : List SyncMessage} (next : (releaseUpTo n p.received).held = m :: rest)
      (ready : (releaseUpTo n p.received).mustWait m = false) :
      TakesUp p { releaseUpTo n p.received with held := rest } m
  /-- When it has waited for the script, after `n` other messages. -/
  | late (n : Nat) {m : SyncMessage} {rest : List SyncMessage} (next : (releaseUpTo n p.dispatched).held = m :: rest)
      (ready : (releaseUpTo n p.dispatched).mustWait m = false) :
      TakesUp p { releaseUpTo n p.dispatched with held := rest } m

theorem TakesUp.calls {m : SyncMessage} (h : p.TakesUp q m) : p.Calls q := by
  cases h with
  | early n => exact (p.calls_received.trans (path_releases n p.received).calls).trans (.of_eq rfl)
  | late n => exact (p.calls_dispatched.trans (path_releases n p.dispatched).calls).trans (.of_eq rfl)

/-- The one check of who sends: an input of somebody else than the configured partner does nothing to the tasks. -/
theorem misattributed_reconcile (p : Peer) {e : InputEvent} (foreign : e.origin ≠ p.config.remoteId) (s : Stamp) :
    (p.reconcile (.forward e s)).battery = p.battery := by
  have dropped : ∀ q : Peer, q.config = p.config → ∃ r outcome,
      q.reconciler.onRemoteMessage q.battery q.config.remoteId (.forward e s) = (r, q.battery, outcome) ∧
        ∀ m, outcome ≠ .passthrough m := by
    intro q config
    unfold Reconciler.onRemoteMessage
    split
    · exact ⟨_, _, rfl, fun _ same => by cases same⟩
    · dsimp only
      unfold Reconciler.onRemoteInput
      rw [if_pos (Or.inl (config ▸ foreign))]
      exact ⟨_, _, rfl, fun _ same => by cases same⟩
  obtain ⟨r, outcome, same, aside⟩ := dropped (p.noteRemoteTime s.time) rfl
  unfold reconcile
  dsimp only [SyncMessage.writeTime?]
  rw [same]
  cases outcome with
  | passthrough m => exact absurd rfl (aside m)
  | applied | duplicate | rejected | localTask => rfl

/-- **A peer keeps to its partner** in a run: as a host it runs the session with nobody else, and what somebody else
sends of the tasks changes nothing in the store. -/
structure KeepsToPartner (p : Peer) (actions : List PeerAction) : Prop where
  runs : p.config.role = .host → ∀ earlier, earlier <+: actions → (p.performAll earlier).phase = .running →
    (p.performAll earlier).link.remote = some p.config.remoteId
  tasks : ∀ earlier dt, earlier ++ [.step dt] <+: actions →
    ∀ q m, ((p.performAll earlier).advanced dt).TakesUp q m → m.task?.isSome = true →
      ∀ x ∈ q.link.remote, x ≠ p.config.remoteId → (q.reconcile m).store = q.store

theorem config_performAll (config : PeerConfig) (commands : List ScenarioCommand) (actions : List PeerAction) :
    ((Peer.new config commands).performAll actions).config = config :=
  performAll_keeps (P := fun p => p.config = config)
    (fun {p} before action => (p.onward_perform action).config.trans before) actions rfl

/-- A host that is idle starts with whoever introduces themselves. -/
theorem running_of_introduced (concluded : p.Concluded) (idle : p.Idle) (host : p.config.role = .host)
    {epoch : UInt64} (current : p.epoch = some epoch) (unknown : p.link.remote = none) {f : Frame} {x : ParticipantId}
    (introduced : p.link.introduces? f = some x) :
    (p.perform (.transport (.frame epoch f))).phase = .running ∧
      (p.perform (.transport (.frame epoch f))).link.remote = some x := by
  have isOpen : p.link.state ≠ .closed := by
    intro closed
    unfold Link.introduces? at introduced
    rw [if_neg fun taken => taken.2.1 closed] at introduced
    cases introduced
  have waiting : p.phase = .waiting := idle.resolve_right fun isOver => isOpen (concluded isOver).link.state
  obtain ⟨remote, established⟩ := Link.introduced unknown f p.now
  rw [introduced] at remote established
  obtain ⟨config, -, -, phase⟩ := (p.hears_took f).same
  have starts : (p.took f).maybeStart p.now =
      { p.took f with clock := (p.took f).clock.startAt p.now, phase := .running }.send (.start p.now) p.now := by
    refine if_neg fun stays => ?_
    rcases stays with guest | started | silent
    · exact guest (config ▸ host)
    · exact started (phase.trans waiting)
    · exact silent ((congrArg Link.state (p.link_took f)).trans (established rfl))
  constructor
  · rw [perform_frame, if_pos current, starts, phase_send]
  · rw [(p.calls_perform _).keeps.2, noted, if_pos current, link_took]
    exact remote

/-- **With whom a session runs.**  A peer keeps to its partner if nobody else introduces themselves on the connection
and, for a host, if it is idle until somebody has.  Such a host keeps to its partner only if nobody else introduces
themselves, and it is idle until then unless a message to start is delivered. -/
theorem keepsToPartner_iff (config : PeerConfig) (commands : List ScenarioCommand) (actions : List PeerAction) :
    let p := Peer.new config commands
    (p.MeetsIn config.remoteId actions → (config.role = .host → p.IdleIn actions) → p.KeepsToPartner actions) ∧
    (config.role = .host → p.IdleIn actions → p.KeepsToPartner actions → p.MeetsIn config.remoteId actions) ∧
    ((∀ t, SyncMessage.start t ∉ p.deliveredIn actions) → p.IdleIn actions) := by
  intro p
  have stranger : p.Acquainted config.remoteId := nofun
  refine ⟨fun meets idle => ⟨fun host earlier among running => ?_,
      fun earlier dt among q m takes _ x known other => ?_⟩,
    fun host idle keeps => meetsIn_of_prefix fun earlier action among => ?_,
    idleIn_of_unstarted (p := .new config commands) (fun _ => Or.inl rfl) (Link.sound_new _ _ _)⟩
  · have known := meets.acquainted stranger among
    cases remote : (p.performAll earlier).link.remote with
    | some x => exact congrArg some (known x remote)
    | none =>
      rcases idle host earlier among remote with waiting | isOver
      · cases running.symm.trans waiting
      · rw [isFinished, running] at isOver
        cases isOver
  · have same : q.link.remote = (p.performAll earlier).link.remote := takes.calls.keeps.2
    exact absurd (meets.acquainted stranger ((List.prefix_append _ _).trans among) x (same ▸ known)) other
  · cases action with
    | transport e =>
      cases e with
      | frame epoch f =>
        intro current unknown x introduced
        have before := (List.prefix_append earlier _).trans among
        have isHost : (p.performAll earlier).config.role = .host :=
          (congrArg PeerConfig.role (config_performAll config commands earlier)).trans host
        obtain ⟨running, remote⟩ := running_of_introduced (concluded_performAll config commands earlier)
          (idle earlier before unknown) isHost current unknown introduced
        have after := keeps.runs host _ among (by rw [performAll_concat]; exact running)
        rw [performAll_concat] at after
        exact Option.some.inj (remote.symm.trans after)
      | connected | disconnected => trivial
    | step | submit | pause | resume | terminate | escape | pollTransmit | requeueOutbound | drainNotifications =>
      trivial

/-! ### A stranger -/

/-- The host meets the guest, hears of a move, and takes it up. -/
def partnerRun : List PeerAction := metRun ++ guestFrame 1 lateMove ++ [.step (.ofMillis 200)]

/-- With the guest at the other end, the host keeps to its partner. -/
theorem keepsToPartner_partnerRun : lateHost.KeepsToPartner partnerRun := by
  have facts : lateHost.MeetsIn (PeerConfig.simulated .host).remoteId partnerRun ∧
      ∀ m ∈ lateHost.deliveredIn partnerRun, m.steers = false := by
    rw [lateHost_eq]
    decide +kernel
  obtain ⟨meets, quiet⟩ := facts
  obtain ⟨keeps, -, idle⟩ := keepsToPartner_iff (.simulated .host) startScript partnerRun
  exact keeps meets fun _ => idle fun t mem => absurd (quiet _ mem) nofun

/-- A value of the tracking task, from a participant whom nobody has configured. -/
def strangerDelta : SyncMessage :=
  .delta .tracking [⟨"running", .bool true, ⟨⟨0⟩, 0, .participant ⟨7⟩⟩⟩]

/-- A frame of the stranger arrives. -/
def strangerFrame (seq : UInt64) (m : SyncMessage) : List PeerAction :=
  (Frame.ofMessage ⟨42⟩ ⟨7⟩ seq m).toOption.toList.map fun f => .transport (.frame 1 f)

/-- The stranger says hello on the connection, and sends the value. -/
def strangerRun (r : Role) : List PeerAction :=
  .transport (.connected 1 r.other.simulatedAddress) :: strangerFrame 0 (.hello ⟨7⟩ 0) ++ strangerFrame 1 strangerDelta

/-- A host runs the session with the stranger, and with a guest the stranger's value goes to the tracking task. -/
theorem not_keepsToPartner_stranger :
    ((PeerConfig.simulated .host).check? = none ∧
      ¬ (Peer.new (.simulated .host) []).KeepsToPartner (strangerRun .host)) ∧
    ((PeerConfig.simulated .guest).check? = none ∧
      ¬ (Peer.new (.simulated .guest) []).KeepsToPartner (strangerRun .guest ++ [.step .zero])) := by
  refine ⟨⟨by decide, fun keeps => ?_⟩, ⟨by decide, fun keeps => ?_⟩⟩
  · have facts : ((Peer.new (.simulated .host) []).performAll (strangerRun .host)).phase = .running ∧
        ((Peer.new (.simulated .host) []).performAll (strangerRun .host)).link.remote = some ⟨7⟩ := by decide +kernel
    have partner := keeps.runs rfl _ (List.prefix_refl _) facts.1
    cases facts.2.symm.trans partner
  · have facts :
        let p := ((Peer.new (.simulated .guest) []).performAll (strangerRun .guest)).advanced .zero
        p.received.held = [strangerDelta] ∧ p.received.mustWait strangerDelta = false ∧
          p.received.link.remote = some ⟨7⟩ ∧ (p.received.store.read .tracking).version = 0 ∧
          (({ p.received with held := [] }.reconcile strangerDelta).store.read .tracking).version = 1 := by
      decide +kernel
    obtain ⟨next, ready, remote, before, after⟩ := facts
    have takes : Peer.TakesUp _ _ strangerDelta := .early 0 next ready
    have same := keeps.tasks _ .zero (List.prefix_refl _) _ strangerDelta takes rfl ⟨7⟩ remote (by decide)
    have still := congrArg (fun store => (store.read .tracking).version) same
    cases after.symm.trans (still.trans before)

end Peer

end Tandem
