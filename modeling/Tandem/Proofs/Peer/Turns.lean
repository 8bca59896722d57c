import Tandem.Proofs.Peer.Deeds
/-!
# The turns of a session

A session turns when it is started, paused or resumed.  A peer turns it by itself, on a signal of its operator or of
the scenario, and tells the other one; or it follows what the other one has told (`PeerPhase.follow`).  Whatever else it
does, the course of the session stays the same and nothing that steers it is told.

What a peer tells in a step is what its link accepts meanwhile (`LinkStream.Accepts`).  `Deed.turn` has one case for
each kind of deed.
-/

namespace Tandem

/-! ## What a link accepts -/

/-- The stream has taken in messages to be sent, and has let go of none. -/
structure LinkStream.Accepts (s s' : LinkStream) (told : List SyncMessage) : Prop where
  inbox : s'.inbox = s.inbox
  through : s'.through = s.through
  retained : ∃ frames, s'.retained = s.retained ++ frames ∧ s'.nextSeq = s.nextSeq + UInt64.ofNat frames.length ∧
    frames.map Frame.message = told.map Except.ok

namespace LinkStream

variable {s t u : LinkStream}

theorem Accepts.refl (s : LinkStream) : s.Accepts s [] :=
  ⟨rfl, rfl, [], (List.append_nil _).symm, (UInt64.add_zero _).symm, rfl⟩

theorem Accepts.of_eq (h : t = s) : s.Accepts t [] := h ▸ .refl s

theorem Accepts.trans {told told' : List SyncMessage} (first : s.Accepts t told) (second : t.Accepts u told') :
    s.Accepts u (told ++ told') where
  inbox := second.inbox.trans first.inbox
  through := second.through.trans first.through
  retained := by
    obtain ⟨frames, kept, next, carried⟩ := first.retained
    obtain ⟨frames', kept', next', carried'⟩ := second.retained
    refine ⟨frames ++ frames', ?_, ?_, ?_⟩
    · rw [kept', kept, List.append_assoc]
    · rw [next', next, List.length_append, UInt64.ofNat_add, UInt64.add_assoc]
    · rw [List.map_append, List.map_append, carried, carried']

end LinkStream

namespace Link

/-- A message is accepted or refused. -/
theorem accepts_send (l : Link) {m : SyncMessage} (numbered : m.isLinkLocal = false) (now : SessionTime) :
    (l.stream.Accepts (l.send m now).1.stream [m.arrived] ∧ ∃ n, (l.send m now).2 = .ok n) ∨
      (l.stream.Accepts (l.send m now).1.stream [] ∧ ∃ fault, (l.send m now).2 = .error fault) := by
  rcases l.send_cases m now with ⟨fault, refused⟩ | ⟨isLocal, -⟩ | ⟨-, -, f, written, accepted⟩
  · rw [refused]
    exact Or.inr ⟨.refl _, fault, rfl⟩
  · rw [numbered] at isLocal
    cases isLocal
  · rw [accepted, stream_enqueue]
    refine Or.inl ⟨⟨rfl, rfl, [f], rfl, rfl, ?_⟩, _, rfl⟩
    rw [List.map_singleton, (Frame.message_ofMessage written).2.2]
    rfl

end Link

/-! ## Phases -/

namespace SyncMessage

/-- Whether a message turns the session. -/
def steers : SyncMessage → Bool
  | start _ | pause _ | resume _ => true
  | _ => false

end SyncMessage

/-- The phase in which a message of the other peer leaves a peer whose session it does not end. -/
def PeerPhase.follow (phase : PeerPhase) (m : SyncMessage) : PeerPhase :=
  match phase, m with
  | waiting, .start _ => running
  | running, .pause _ => paused
  | paused, .resume _ => running
  | _, _ => phase

theorem PeerPhase.follow_start (phase : PeerPhase) (t : SessionTime) :
    phase.follow (.start t) = if phase = .waiting then .running else phase := by
  cases phase <;> rfl

theorem PeerPhase.follow_pause (phase : PeerPhase) (t : SessionTime) :
    phase.follow (.pause t) = if phase = .running then .paused else phase := by
  cases phase <;> rfl

theorem PeerPhase.follow_resume (phase : PeerPhase) (t : SessionTime) :
    phase.follow (.resume t) = if phase = .paused then .running else phase := by
  cases phase <;> rfl

theorem PeerPhase.follow_of_quiet {m : SyncMessage} (quiet : m.steers = false) (phase : PeerPhase) :
    phase.follow m = phase := by
  cases m with
  | start | pause | resume => cases quiet
  | delta | forward | heartbeat | hello | finish => cases phase <;> rfl

/-- The command pauses or resumes the session, as the message tells. -/
inductive ScenarioCommand.Orders (c : ScenarioCommand) : SyncMessage → Prop where
  | pause (time : SessionTime) (payload : c.payload = .act .session .pause) : Orders c (.pause time)
  | resume (time : SessionTime) (payload : c.payload = .act .session .resume) : Orders c (.resume time)

namespace Battery

variable {b : Battery}

theorem applyScripted_ne_session (t : TaskId) (changes : List FieldChange) (command : SessionCommand) :
    (b.applyScripted t changes).2 ≠ .session command := by
  unfold applyScripted
  split <;> nofun

/-- Only a command for the session as a whole is handed back. -/
theorem payload_of_session {c : ScenarioCommand} {command : SessionCommand} (h : (b.run c).2 = .session command) :
    (∃ a, c.payload = .act .session a ∧ SessionCommand.ofAction? a = some command) ∨
      ∃ parameter value, SessionCommand.ofParameter? parameter value = some command := by
  have read : ∀ {command? : Option SessionCommand}, (command?.map Dispatch.session).getD .skipped = .session command →
      command? = some command := fun {command?} same => by
    cases command? with
    | none => cases same
    | some other =>
      cases same
      rfl
  unfold run at h
  split at h
  · exact Or.inl ⟨_, ‹_›, read h⟩
  · exact Or.inr ⟨_, _, read h⟩
  · unfold runAction at h
    split at h <;> exact absurd h (applyScripted_ne_session _ _ command)
  · unfold runParameter at h
    split at h
    · exact absurd h (applyScripted_ne_session _ _ command)
    · cases h

/-- Parameters neither turn the session nor end it. -/
theorem ofParameter_ne (parameter : FieldKey) (value : String) {command : SessionCommand}
    (actual : command = .pause ∨ command = .resume ∨ command = .finish) :
    SessionCommand.ofParameter? parameter value ≠ some command := by
  have mapped : ∀ (command : SessionCommand) (f : Bool → SessionCommand) (on? : Option Bool),
      (∀ on, f on ≠ command) → on?.map f ≠ some command := by
    intro command f on? apart
    cases on? with
    | none => exact nofun
    | some on => exact fun same => apart on (Option.some.inj same)
  rcases actual with rfl | rfl | rfl
  all_goals
    unfold SessionCommand.ofParameter?
    split
    · exact nofun
    · split
      · exact mapped _ _ _ fun _ => nofun
      · split
        · exact mapped _ _ _ fun _ => nofun
        · split
          · exact mapped _ _ _ fun _ => nofun
          · exact nofun

/-- A command that pauses or resumes the session says so. -/
theorem payload_of_turn {c : ScenarioCommand} :
    ((b.run c).2 = .session .pause → c.payload = .act .session .pause) ∧
      ((b.run c).2 = .session .resume → c.payload = .act .session .resume) := by
  constructor
  · intro h
    rcases payload_of_session h with ⟨a, payload, action⟩ | ⟨parameter, value, same⟩
    · cases a <;> first | exact payload | cases action
    · exact absurd same (ofParameter_ne parameter value (Or.inl rfl))
  · intro h
    rcases payload_of_session h with ⟨a, payload, action⟩ | ⟨parameter, value, same⟩
    · cases a <;> first | exact payload | cases action
    · exact absurd same (ofParameter_ne parameter value (Or.inr (Or.inl rfl)))

/-- So does a command that ends it. -/
theorem payload_of_finish {c : ScenarioCommand} (h : (b.run c).2 = .session .finish) :
    c.payload = .act .session .finish := by
  rcases payload_of_session h with ⟨a, payload, action⟩ | ⟨parameter, value, same⟩
  · cases a <;> first | exact payload | cases action
  · exact absurd same (ofParameter_ne parameter value (Or.inr (Or.inr rfl)))

end Battery

namespace Peer

/-- The parts of a peer that matter for the course of the session. -/
structure Course where
  config : PeerConfig
  stream : LinkStream
  failures : Nat
  held : List SyncMessage
  phase : PeerPhase

/-- The parts of a peer that matter for the course of the session. -/
def course (p : Peer) : Course := ⟨p.config, p.link.stream, p.stats.sendFailures, p.held, p.phase⟩

/-- What a peer has told. -/
structure Tells (p q : Peer) (told : List SyncMessage) : Prop where
  config : q.config = p.config
  accepts : p.link.stream.Accepts q.link.stream told
  failures : p.stats.sendFailures ≤ q.stats.sendFailures

/-- Nothing has turned, unless the session is over. -/
structure GoesOn (p q : Peer) (told : List SyncMessage) : Prop extends Tells p q told where
  quiet : ∀ m ∈ told, m.steers = false
  held : q.held <:+ p.held
  still : q.isFinished = true ∨ (q.held = p.held ∧ q.phase = p.phase)

/-- The peer has turned the session, and has told so unless the link refused it. -/
structure Turned (p q : Peer) (m : SyncMessage) (told : List SyncMessage) : Prop extends Tells p q told where
  steers : m.steers = true
  held : q.held = p.held
  follows : q.phase = p.phase.follow m
  turned : q.phase ≠ p.phase
  tells : told = [m] ∨ (told = [] ∧ p.stats.sendFailures < q.stats.sendFailures)

theorem Tells.trans {p q r : Peer} {told told' : List SyncMessage} (first : p.Tells q told) (second : q.Tells r told') :
    p.Tells r (told ++ told') :=
  ⟨second.config.trans first.config, first.accepts.trans second.accepts, Nat.le_trans first.failures second.failures⟩

theorem Tells.of_eq {p q : Peer} (config : q.config = p.config) (stream : q.link.stream = p.link.stream)
    (failures : q.stats.sendFailures = p.stats.sendFailures) : p.Tells q [] :=
  ⟨config, .of_eq stream, Nat.le_of_eq failures.symm⟩

/-- A change that tells nothing and turns nothing. -/
theorem GoesOn.of_eq {p q : Peer} (same : q.course = p.course) : p.GoesOn q [] := by
  simp only [course, Course.mk.injEq] at same
  obtain ⟨config, stream, failures, held, phase⟩ := same
  exact ⟨.of_eq config stream failures, fun _ mem => absurd mem List.not_mem_nil, held ▸ List.suffix_refl _,
    Or.inr ⟨held, phase⟩⟩

theorem GoesOn.refl (p : Peer) : p.GoesOn p [] := .of_eq rfl

theorem GoesOn.trans {p q r : Peer} {told told' : List SyncMessage} (first : p.GoesOn q told)
    (second : q.GoesOn r told') (stays : q.isFinished = true → r.isFinished = true) : p.GoesOn r (told ++ told') where
  toTells := first.toTells.trans second.toTells
  quiet m mem := (List.mem_append.mp mem).elim (first.quiet m) (second.quiet m)
  held := second.held.trans first.held
  still := by
    rcases second.still with isOver | ⟨held', phase'⟩
    · exact Or.inl isOver
    · rcases first.still with isOver | ⟨held, phase⟩
      · exact Or.inl (stays isOver)
      · exact Or.inr ⟨held'.trans held, phase'.trans phase⟩

/-- Where the course was the same before. -/
theorem GoesOn.behind {p q r : Peer} {told : List SyncMessage} (h : q.GoesOn r told) (same : q.course = p.course) :
    p.GoesOn r told := by
  simp only [course, Course.mk.injEq] at same
  obtain ⟨config, stream, failures, held, phase⟩ := same
  exact ⟨⟨config ▸ h.config, stream ▸ h.accepts, failures ▸ h.failures⟩, h.quiet, held ▸ h.held, held ▸ phase ▸ h.still⟩

theorem Turned.behind {p q r : Peer} {m : SyncMessage} {told : List SyncMessage} (h : q.Turned r m told)
    (same : q.course = p.course) : p.Turned r m told := by
  simp only [course, Course.mk.injEq] at same
  obtain ⟨config, stream, failures, held, phase⟩ := same
  exact ⟨⟨config ▸ h.config, stream ▸ h.accepts, failures ▸ h.failures⟩, h.steers, held ▸ h.held, phase ▸ h.follows,
    phase ▸ h.turned, failures ▸ h.tells⟩

@[simp] theorem phase_send (p : Peer) (m : SyncMessage) (now : SessionTime) : (p.send m now).phase = p.phase :=
  congrArg Stance.phase (p.stance_send m now)

/-- **A message is told**, or the failure is counted. -/
theorem tells_send (p : Peer) {m : SyncMessage} (numbered : m.isLinkLocal = false) (now : SessionTime) :
    ∃ told, p.Tells (p.send m now) told ∧ (told = [m.arrived] ∨
      (told = [] ∧ p.stats.sendFailures < (p.send m now).stats.sendFailures)) := by
  unfold send
  rcases p.link.accepts_send numbered now with ⟨accepts, n, sent⟩ | ⟨accepts, fault, refused⟩
  · generalize p.link.send m now = out at accepts sent ⊢
    obtain ⟨link, result⟩ := out
    cases sent
    exact ⟨_, ⟨rfl, accepts, Nat.le_refl _⟩, Or.inl rfl⟩
  · generalize p.link.send m now = out at accepts refused ⊢
    obtain ⟨link, result⟩ := out
    cases refused
    exact ⟨_, ⟨rfl, accepts, Nat.le_succ _⟩, Or.inr ⟨rfl, Nat.lt_succ_self _⟩⟩

/-- A message that does not steer is told. -/
theorem goesOn_send (p : Peer) {m : SyncMessage} (numbered : m.isLinkLocal = false) (quiet : m.arrived.steers = false)
    (now : SessionTime) : ∃ told, p.GoesOn (p.send m now) told := by
  obtain ⟨told, tells, which⟩ := p.tells_send numbered now
  have held := p.held_send m now
  refine ⟨told, tells, fun m' mem => ?_, held ▸ List.suffix_refl _, Or.inr ⟨held, p.phase_send m now⟩⟩
  rcases which with rfl | ⟨rfl, -⟩
  · rw [List.mem_singleton.mp mem]
    exact quiet
  · exact absurd mem List.not_mem_nil

/-- A peer turns the session and says so. -/
theorem turned_send (p q : Peer) {m : SyncMessage} (steers : m.steers = true)
    (same : { q.course with phase := p.phase } = p.course) (follows : q.phase = p.phase.follow m)
    (turned : q.phase ≠ p.phase) (now : SessionTime) : ∃ told, p.Turned (q.send m now) m told := by
  have shape : m.isLinkLocal = false ∧ m.arrived = m := by
    cases m with
    | start | pause | resume => exact ⟨rfl, rfl⟩
    | delta | forward | heartbeat | hello | finish => cases steers
  obtain ⟨told, tells, which⟩ := q.tells_send shape.1 now
  simp only [course, Course.mk.injEq, and_true] at same
  obtain ⟨config, stream, failures, held⟩ := same
  rw [shape.2, failures] at which
  refine ⟨told, ⟨⟨config ▸ tells.config, stream ▸ tells.accepts, failures ▸ tells.failures⟩, steers, ?_, ?_, ?_, which⟩⟩
  · rw [held_send, held]
  · rw [phase_send, follows]
  · rw [phase_send]
    exact turned

/-! ## What a peer does by itself -/

theorem turn_pause (p : Peer) : (p.pause = p ∧ p.phase ≠ .running) ∨
    (p.phase = .running ∧ ∃ told, p.Turned p.pause (.pause p.now) told) := by
  unfold pause
  by_cases running : p.phase = .running
  · rw [if_neg (not_not_intro running)]
    refine Or.inr ⟨running, turned_send p { p with clock := p.clock.pause, phase := .paused } rfl rfl ?_ ?_ _⟩
    · rw [running]
      rfl
    · rw [running]
      exact nofun
  · rw [if_pos running]
    exact Or.inl ⟨rfl, running⟩

theorem turn_resume (p : Peer) : (p.resume = p ∧ p.phase ≠ .paused) ∨
    (p.phase = .paused ∧ ∃ told, p.Turned p.resume (.resume p.now) told) := by
  unfold resume
  by_cases paused : p.phase = .paused
  · rw [if_neg (not_not_intro paused)]
    refine Or.inr ⟨paused, turned_send p { p with clock := p.clock.resume, phase := .running } rfl rfl ?_ ?_ _⟩
    · rw [paused]
      rfl
    · rw [paused]
      exact nofun
  · rw [if_pos paused]
    exact Or.inl ⟨rfl, paused⟩

theorem turn_maybeStart (p : Peer) (now : SessionTime) : p.maybeStart now = p ∨
    (p.phase = .waiting ∧ p.config.role = .host ∧ ∃ told, p.Turned (p.maybeStart now) (.start now) told) := by
  unfold maybeStart
  by_cases idle : p.config.role ≠ .host ∨ p.phase ≠ .waiting ∨ p.link.state ≠ .established
  · rw [if_pos idle]
    exact Or.inl rfl
  · rw [if_neg idle]
    have waiting : p.phase = .waiting := Decidable.of_not_not fun other => idle (Or.inr (Or.inl other))
    have host : p.config.role = .host := Decidable.of_not_not fun other => idle (Or.inl other)
    refine Or.inr ⟨waiting, host, ?_⟩
    refine turned_send p { p with clock := p.clock.startAt now, phase := .running } rfl rfl ?_ ?_ _
    · rw [waiting]
      rfl
    · rw [waiting]
      exact nofun

/-- The end is told, and it is no turn. -/
theorem goesOn_terminate (p : Peer) : ∃ told, p.GoesOn p.terminate told := by
  unfold terminate
  split
  · exact ⟨[], .refl p⟩
  · obtain ⟨told, goes⟩ := p.goesOn_send (m := .finish) rfl rfl p.now
    refine ⟨told, ⟨goes.config, ?_, goes.failures⟩, goes.quiet, List.nil_suffix, Or.inl rfl⟩
    -- Closing the link lets go of nothing that it has accepted, so the end has been told all the same.
    have stream : ∀ (l : Link) now, (l.drainOutbound.2.close now).stream = l.stream := fun l now =>
      (Link.stream_close _ now).trans l.stream_drainOutbound
    have closed := stream (p.send .finish p.now).link
    dsimp only [conclude, finish, flushLog, count]
    rw [closed]
    exact goes.accepts

/-- An own input leads to an input to forward and what took effect, or to nothing. -/
theorem quiet_onLocalInput (r : Reconciler) (b : Battery) (e : InputEvent) (now : SessionTime) :
    ∀ m ∈ (r.onLocalInput b e now).2.2, m.isLinkLocal = false ∧ m.arrived.steers = false := by
  have none : ∀ m ∈ ([] : List SyncMessage), m.isLinkLocal = false ∧ m.arrived.steers = false :=
    fun _ mem => absurd mem List.not_mem_nil
  have both : ∀ (s : Stamp) (t : TaskId) (changes : List FieldChange),
      ∀ m ∈ [SyncMessage.forward e s, .delta t changes], m.isLinkLocal = false ∧ m.arrived.steers = false := by
    intro s t changes m mem
    rcases List.mem_pair.mp mem with rfl | rfl <;> exact ⟨rfl, rfl⟩
  unfold Reconciler.onLocalInput
  dsimp only
  split
  · exact none
  · split
    · exact none
    · split
      · exact none
      · exact both _ _ _

theorem goesOn_sends {messages : List SyncMessage}
    (quiet : ∀ m ∈ messages, m.isLinkLocal = false ∧ m.arrived.steers = false) (p : Peer) (now : SessionTime) :
    ∃ told, p.GoesOn (messages.foldl (fun q m => q.send m now) p) told ∧
      (messages.foldl (fun q m => q.send m now) p).phase = p.phase := by
  induction messages generalizing p with
  | nil => exact ⟨[], .refl p, rfl⟩
  | cons m rest ih =>
    obtain ⟨numbered, steers⟩ := quiet m List.mem_cons_self
    obtain ⟨told, first⟩ := p.goesOn_send numbered steers now
    obtain ⟨told', second, phase⟩ := ih (fun m' mem => quiet m' (List.mem_cons_of_mem m mem)) (p.send m now)
    refine ⟨told ++ told', first.trans second fun isOver => ?_, phase.trans (p.phase_send m now)⟩
    rw [isFinished, List.foldl_cons, phase]
    exact isOver

theorem goesOn_applyInput (p : Peer) (payload : InputPayload) (now : SessionTime) :
    ∃ told, p.GoesOn (p.applyInput payload now) told ∧ (p.applyInput payload now).phase = p.phase := by
  have quiet := quiet_onLocalInput p.reconciler p.battery (InputEvent.captured p.config.localId now payload) now
  unfold applyInput
  dsimp only
  generalize p.reconciler.onLocalInput p.battery (InputEvent.captured p.config.localId now payload) now = out at quiet ⊢
  obtain ⟨reconciler, battery, messages⟩ := out
  have applied : p.GoesOn { p with reconciler := reconciler, battery := battery } [] := .of_eq rfl
  obtain ⟨told, goes, phase⟩ := goesOn_sends quiet { p with reconciler := reconciler, battery := battery } now
  refine ⟨told, applied.trans goes fun isOver => ?_, phase⟩
  rw [isFinished, phase]
  exact isOver

theorem goesOn_applyLocalInputs (p : Peer) (now : SessionTime) :
    ∃ told, p.GoesOn (p.applyLocalInputs now) told ∧ (p.applyLocalInputs now).phase = p.phase := by
  have each : ∀ (inputs : List InputPayload) (p : Peer),
      ∃ told, p.GoesOn (inputs.foldl (fun q payload => q.applyInput payload now) p) told ∧
        (inputs.foldl (fun q payload => q.applyInput payload now) p).phase = p.phase := by
    intro inputs
    induction inputs with
    | nil => exact fun p => ⟨[], .refl p, rfl⟩
    | cons payload rest ih =>
      intro p
      obtain ⟨told, first, phase⟩ := p.goesOn_applyInput payload now
      obtain ⟨told', second, phase'⟩ := ih (p.applyInput payload now)
      refine ⟨told ++ told', first.trans second fun isOver => ?_, phase'.trans phase⟩
      rw [isFinished, List.foldl_cons, phase']
      exact isOver
  unfold applyLocalInputs
  dsimp only
  split
  · exact ⟨[], .of_eq rfl, rfl⟩
  · obtain ⟨told, goes, phase⟩ := each p.pendingInputs.toList { p with pendingInputs := .empty }
    have taken : p.GoesOn { p with pendingInputs := .empty } [] := .of_eq rfl
    refine ⟨told, taken.trans goes fun isOver => ?_, phase⟩
    rw [isFinished, phase]
    exact isOver

/-- **A command turns the session if it orders so.** -/
theorem turn_runCommand (p : Peer) (c : ScenarioCommand) (now : SessionTime) :
    ∃ told, p.GoesOn (p.runCommand c now) told ∨ ∃ m, c.Orders m ∧ p.Turned (p.runCommand c now) m told := by
  have payload := Battery.payload_of_turn (b := p.battery) (c := c)
  unfold runCommand
  generalize p.battery.run c = out at payload ⊢
  obtain ⟨battery, dispatch⟩ := out
  dsimp only at payload ⊢
  split
  · exact ⟨[], Or.inl (.of_eq rfl)⟩
  · rename_i command
    -- Before the peer obeys what the battery hands back, the course of the session is as it was.
    generalize ran : Peer.countDispatched _ = q
    have same : q.course = p.course := ran ▸ rfl
    dsimp only [onSessionCommand]
    cases command with
    | finish =>
      obtain ⟨told, goes⟩ := q.goesOn_terminate
      exact ⟨told, Or.inl (goes.behind same)⟩
    | pause =>
      obtain ⟨still, -⟩ | ⟨-, told, turned⟩ := q.turn_pause
      · exact ⟨[], Or.inl (.of_eq (by rw [← same]; exact congrArg course still))⟩
      · exact ⟨told, Or.inr ⟨_, .pause _ (payload.1 rfl), turned.behind same⟩⟩
    | resume =>
      obtain ⟨still, -⟩ | ⟨-, told, turned⟩ := q.turn_resume
      · exact ⟨[], Or.inl (.of_eq (by rw [← same]; exact congrArg course still))⟩
      · exact ⟨told, Or.inr ⟨_, .resume _ (payload.2 rfl), turned.behind same⟩⟩
    | log | showLabels | allowEscape | allowAltF4 => exact ⟨[], Or.inl (.of_eq (by rw [← same]; rfl))⟩
  · exact ⟨[], Or.inl (.of_eq rfl)⟩

/-! ## What a peer follows -/

/-- **A message is followed**, and nothing is told. -/
theorem follows_onControl (p : Peer) (m : SyncMessage) : p.Tells (p.onControl m) [] ∧ (p.onControl m).held <:+ p.held ∧
    ((p.onControl m).isFinished = true ∨
      ((p.onControl m).held = p.held ∧ (p.onControl m).phase = p.phase.follow m)) := by
  cases m with
  | start seed =>
    dsimp only [onControl, onStart]
    rw [PeerPhase.follow_start]
    split
    · exact ⟨.of_eq rfl rfl rfl, List.suffix_refl _, Or.inr ⟨rfl, (if_pos ‹_›).symm⟩⟩
    · exact ⟨.of_eq rfl rfl rfl, List.suffix_refl _, Or.inr ⟨rfl, (if_neg ‹_›).symm⟩⟩
  | pause time =>
    dsimp only [onControl, onPause]
    rw [PeerPhase.follow_pause]
    split
    · exact ⟨.of_eq rfl rfl rfl, List.suffix_refl _, Or.inr ⟨rfl, (if_pos ‹_›).symm⟩⟩
    · exact ⟨.of_eq rfl rfl rfl, List.suffix_refl _, Or.inr ⟨rfl, (if_neg ‹_›).symm⟩⟩
  | resume time =>
    dsimp only [onControl, onResume]
    rw [PeerPhase.follow_resume]
    split
    · exact ⟨.of_eq rfl rfl rfl, List.suffix_refl _, Or.inr ⟨rfl, (if_pos ‹_›).symm⟩⟩
    · exact ⟨.of_eq rfl rfl rfl, List.suffix_refl _, Or.inr ⟨rfl, (if_neg ‹_›).symm⟩⟩
  | finish =>
    dsimp only [onControl]
    split
    · exact ⟨.of_eq rfl rfl rfl, List.suffix_refl _, Or.inl ‹_›⟩
    · exact ⟨.of_eq rfl (Link.stream_close _ _) rfl, List.nil_suffix, Or.inl rfl⟩
  | delta | forward | heartbeat | hello =>
    exact ⟨.of_eq rfl rfl rfl, List.suffix_refl _, Or.inr ⟨rfl, (PeerPhase.follow_of_quiet rfl _).symm⟩⟩

/-- **A message is followed**, and nothing is told. -/
theorem follows_reconcile (p : Peer) (m : SyncMessage) : p.Tells (p.reconcile m) [] ∧ (p.reconcile m).held <:+ p.held ∧
    ((p.reconcile m).isFinished = true ∨
      ((p.reconcile m).held = p.held ∧ (p.reconcile m).phase = p.phase.follow m)) := by
  by_cases task : m.task? = none
  · rw [p.reconcile_control task]
    exact p.follows_onControl m
  · -- A message about a task goes to the tasks, and steers nothing.
    have quiet : m.steers = false := by
      cases m with
      | start | pause | resume => exact absurd rfl task
      | delta | forward | heartbeat | hello | finish => rfl
    have passed := @Reconciler.eq_of_passthrough p.reconciler p.battery p.config.remoteId m
    have aside : ∀ {q : Peer}, q.course = p.course → p.Tells q [] ∧ q.held <:+ p.held ∧ (q.isFinished = true ∨
        (q.held = p.held ∧ q.phase = p.phase.follow m)) := fun same => by
      have goes := GoesOn.of_eq same
      rw [PeerPhase.follow_of_quiet quiet]
      exact ⟨goes.toTells, goes.held, goes.still⟩
    rw [p.reconcile_task task]
    dsimp only
    generalize p.reconciler.onRemoteMessage p.battery p.config.remoteId m = out at passed ⊢
    obtain ⟨reconciler, battery, outcome⟩ := out
    cases outcome with
    | applied | duplicate | localTask | rejected => exact aside rfl
    | passthrough m' => exact absurd (passed rfl).2 task

theorem goesOn_expireRounds (p : Peer) (now : SessionTime) : p.GoesOn (p.expireRounds now) [] := by
  unfold expireRounds
  split
  · exact .refl p
  · exact .of_eq rfl

theorem goesOn_runLinkTimers (p : Peer) (now : SessionTime) : p.GoesOn (p.runLinkTimers now) [] := by
  have ticked : ∀ {link : Link} {result : Except Fault Unit}, p.link.tick now = (link, result) →
      link.stream = p.link.stream := fun {link result} same => by
    have stream := p.link.stream_tick now
    rw [same] at stream
    exact stream
  have still : ∀ {q : Peer}, q.link.stream = p.link.stream → { q.course with stream := p.link.stream } = p.course →
      p.GoesOn q [] := fun stream same => .of_eq (by rw [← same, ← stream]; rfl)
  unfold runLinkTimers
  split
  · rename_i same
    exact still (ticked same) rfl
  · rename_i same
    dsimp only
    split
    · exact still (ticked same) rfl
    · exact ⟨.of_eq rfl (ticked same) rfl, fun _ mem => absurd mem List.not_mem_nil, List.nil_suffix, Or.inl rfl⟩
  · rename_i same
    exact still (ticked same) rfl

end Peer

/-! ## Deeds -/

/-- How the session goes on in a deed. -/
inductive Turn (a b : Moment) : Cause → List SyncMessage → Prop where
  /-- A message of the other peer is followed. -/
  | heeds {m : SyncMessage} (tells : a.peer.Tells b.peer []) (held : a.peer.held = m :: b.peer.held)
      (follows : b.peer.phase = a.peer.phase.follow m) : Turn a b .message []
  | goesOn {cause : Cause} {told : List SyncMessage} (goes : a.peer.GoesOn b.peer told)
      (heard : cause = .message → b.peer.isFinished = true) : Turn a b cause told
  /-- The next command is followed. -/
  | obeys {c : ScenarioCommand} {m : SyncMessage} {told : List SyncMessage} (next : c ∈ a.ahead.head?)
      (orders : c.Orders m) (turned : a.peer.Turned b.peer m told) : Turn a b .command told

/-- **How the session goes on in each deed.** -/
theorem Deed.turn {cause : Cause} {a b : Moment} (h : Deed cause a b) : ∃ told, Turn a b cause told := by
  have own : ∀ {told}, cause ≠ .message → a.peer.GoesOn b.peer told → ∃ told, Turn a b cause told :=
    fun apart goes => ⟨_, .goesOn goes fun same => absurd same apart⟩
  cases h with
  | @heeds p m rest first ready =>
    obtain ⟨told, shorter, outcome⟩ := Peer.follows_reconcile { p with held := rest } m
    have tells : p.Tells ({ p with held := rest }.reconcile m) [] := ⟨told.config, told.accepts, told.failures⟩
    have behind : rest <:+ p.held := first ▸ List.suffix_cons m rest
    obtain isOver | ⟨held, phase⟩ := outcome
    · -- A message that ends the session leaves no message held behind it, so it counts as none that is followed.
      refine ⟨[], .goesOn ⟨tells, ?_, shorter.trans behind, Or.inl isOver⟩ fun _ => isOver⟩
      exact fun _ mem => absurd mem List.not_mem_nil
    · refine ⟨[], .heeds (m := m) tells ?_ phase⟩
      rw [first]
      exact congrArg (m :: ·) held.symm
  | attends p now =>
    obtain ⟨told, goes, -⟩ := p.goesOn_applyLocalInputs now
    exact own nofun goes
  | withholds p => exact own nofun (.of_eq rfl)
  | handsOut p now running => exact own nofun (.of_eq rfl)
  | runs p c rest now on =>
    obtain ⟨told, goes | ⟨m, orders, turned⟩⟩ := p.turn_runCommand c now
    · exact own nofun goes
    · exact ⟨told, .obeys (c := c) rfl orders turned⟩
  | expires p now => exact own nofun (p.goesOn_expireRounds now)
  | ticks p now => exact own nofun (p.goesOn_runLinkTimers now)
  | flushes p now => exact own nofun (.of_eq rfl)

theorem Turn.tells {cause : Cause} {a b : Moment} {told : List SyncMessage} (h : Turn a b cause told) :
    a.peer.Tells b.peer told := by
  cases h with
  | heeds tells => exact tells
  | goesOn goes => exact goes.toTells
  | obeys _ _ turned => exact turned.toTells

/-- What is told along a path. -/
theorem Path.tells {a b : Moment} {l : List (Cause × Peer)} (h : Path a l b) : ∃ told, a.peer.Tells b.peer told :=
  h.preserves (R := fun a b => ∃ told, a.peer.Tells b.peer told) (fun a => ⟨[], (Peer.GoesOn.refl a.peer).toTells⟩)
    (fun ⟨_, first⟩ ⟨_, second⟩ => ⟨_, first.trans second⟩) fun deed => deed.turn.imp fun _ turn => turn.tells

/-- A step leaves nothing in the inbox of the link. -/
theorem Peer.inbox_step (p : Peer) (dt : Duration) : (p.perform (.step dt)).link.inbox.toList = [] := by
  obtain ⟨told, tells⟩ := (p.advanced dt).path_stages.tells
  have inbox := tells.accepts.inbox
  rw [perform_step]
  generalize (p.advanced dt).run = q at inbox ⊢
  exact inbox

end Tandem
