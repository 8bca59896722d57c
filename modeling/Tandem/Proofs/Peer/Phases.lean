import Tandem.Proofs.Peer.Conversation
/-!
# Where two operators leave a session

Each of the operators may pause and resume at any time, and the peers tell each other.  A peer follows what it is told
only as far as its own phase allows, whatever its operator has done in the meantime, so the outcome depends on how the
messages cross.

The phase for which a peer is bound (`Chronicle.destined`) is the one in which it is when all that is still to come to
it has been followed.  Following leaves that phase alone, and a turn of an operator makes it that of the operator's own
peer at the other end (`PeerPhase.follow_of_turned`).  So the other peer is always bound for where the operator who
turned the session last has left it, and the only question is whether the peer of that operator is: what was on its way
to it then must not turn it any more.  `Meeting.phases_agree_iff` says that this is all.
-/

namespace Tandem

/-- Whether a command pauses or resumes the session. -/
def ScenarioCommand.turns (c : ScenarioCommand) : Bool :=
  c.payload = .act .session .pause ∨ c.payload = .act .session .resume

theorem ScenarioCommand.Orders.turns {c : ScenarioCommand} {m : SyncMessage} (h : c.Orders m) : c.turns = true := by
  cases h with
  | pause _ payload => exact decide_eq_true (Or.inl payload)
  | resume _ payload => exact decide_eq_true (Or.inr payload)

/-! ## Following -/

namespace PeerPhase

variable {phase other : PeerPhase} {m : SyncMessage} {l : List SyncMessage}

theorem follow_ne_waiting (started : phase ≠ .waiting) (m : SyncMessage) : phase.follow m ≠ .waiting := by
  cases phase with
  | waiting => exact absurd rfl started
  | running => cases m <;> exact nofun
  | paused => cases m <;> exact nofun
  | ended | aborted => cases m <;> exact nofun

theorem isFinished_follow (phase : PeerPhase) (m : SyncMessage) : (phase.follow m).isFinished = phase.isFinished := by
  cases phase <;> cases m <;> rfl

theorem foldl_follow_ne_waiting (started : phase ≠ .waiting) (l : List SyncMessage) :
    l.foldl follow phase ≠ .waiting := by
  induction l generalizing phase with
  | nil => exact started
  | cons m rest ih => exact ih (follow_ne_waiting started m)

theorem isFinished_foldl_follow (phase : PeerPhase) (l : List SyncMessage) :
    (l.foldl follow phase).isFinished = phase.isFinished := by
  induction l generalizing phase with
  | nil => rfl
  | cons m rest ih => exact (ih (phase.follow m)).trans (isFinished_follow phase m)

theorem foldl_follow_of_quiet (quiet : ∀ m ∈ l, m.steers = false) (phase : PeerPhase) :
    l.foldl follow phase = phase := by
  induction l generalizing phase with
  | nil => rfl
  | cons m rest ih =>
    rw [List.foldl_cons, follow_of_quiet (quiet m List.mem_cons_self)]
    exact ih (fun m' mem => quiet m' (List.mem_cons_of_mem m mem)) phase

theorem running_of_pause {t : SessionTime} (turned : phase.follow (.pause t) ≠ phase) : phase = .running :=
  Decidable.of_not_not fun apart => turned (by rw [follow_pause, if_neg apart])

theorem paused_of_resume {t : SessionTime} (turned : phase.follow (.resume t) ≠ phase) : phase = .paused :=
  Decidable.of_not_not fun apart => turned (by rw [follow_resume, if_neg apart])

/-- **A message that turns one running or paused session leaves every other one in the same phase.** -/
theorem follow_of_turned (turned : phase.follow m ≠ phase) (started : phase ≠ .waiting) (started' : other ≠ .waiting)
    (on : other.isFinished = false) : other.follow m = phase.follow m := by
  cases m with
  | delta | forward | heartbeat | hello | finish => exact absurd (follow_of_quiet rfl phase) turned
  | start t =>
    rw [follow_start, if_neg started] at turned
    exact absurd rfl turned
  | pause t =>
    rw [running_of_pause turned]
    cases other with
    | waiting => exact absurd rfl started'
    | running | paused => rfl
    | ended | aborted => cases on
  | resume t =>
    rw [paused_of_resume turned]
    cases other with
    | waiting => exact absurd rfl started'
    | running | paused => rfl
    | ended | aborted => cases on

end PeerPhase

/-! ## Deeds and actions -/

/-- From one moment to another the session is not over, no message is refused, and no command that turns the session
has been run or dropped. -/
structure Moment.Calm (a b : Moment) : Prop where
  on : b.peer.isFinished = false
  sent : b.peer.stats.sendFailures ≤ a.peer.stats.sendFailures
  ahead : a.ahead.countP (·.turns) ≤ b.ahead.countP (·.turns)

/-- Messages have been followed, and nothing that turns the session has been told. -/
structure Peer.Follows (p q : Peer) (heeded told : List SyncMessage) : Prop where
  quiet : ∀ m ∈ told, m.steers = false
  held : p.held = heeded ++ q.held
  phase : q.phase = heeded.foldl PeerPhase.follow p.phase

theorem Peer.Follows.trans {p q r : Peer} {heeded heeded' told told' : List SyncMessage}
    (first : p.Follows q heeded told) (second : q.Follows r heeded' told') :
    p.Follows r (heeded ++ heeded') (told ++ told') where
  quiet m mem := (List.mem_append.mp mem).elim (first.quiet m) (second.quiet m)
  held := by rw [first.held, second.held, List.append_assoc]
  phase := by rw [second.phase, first.phase, List.foldl_append]

/-- What is known of two moments of one step. -/
structure Moment.Leads (a b : Moment) : Prop where
  stays : a.peer.isFinished = true → b.peer.isFinished = true
  shortens : b.ahead <:+ a.ahead
  tells : ∃ told, a.peer.Tells b.peer told ∧ (a.Calm b → ∃ heeded, a.peer.Follows b.peer heeded told)

namespace Moment

variable {a b c : Moment}

theorem Leads.refl (a : Moment) : a.Leads a where
  stays := id
  shortens := List.suffix_refl _
  tells := ⟨[], (Peer.GoesOn.refl a.peer).toTells, fun _ => ⟨[], fun _ mem => absurd mem List.not_mem_nil, rfl, rfl⟩⟩

theorem Leads.trans (first : a.Leads b) (second : b.Leads c) : a.Leads c where
  stays := second.stays ∘ first.stays
  shortens := second.shortens.trans first.shortens
  tells := by
    obtain ⟨told, tells, follows⟩ := first.tells
    obtain ⟨told', tells', follows'⟩ := second.tells
    refine ⟨told ++ told', tells.trans tells', fun calm => ?_⟩
    -- What is calm from one end to the other is calm in between.
    have on : b.peer.isFinished = false := Bool.eq_false_iff.mpr fun ended => by
      have isOver := second.stays ended
      rw [calm.on] at isOver
      cases isOver
    have fewer := first.shortens.sublist.countP_le (p := (·.turns))
    have fewer' := second.shortens.sublist.countP_le (p := (·.turns))
    have calm' : b.Calm c := ⟨calm.on, Nat.le_trans calm.sent tells.failures, Nat.le_trans fewer calm.ahead⟩
    obtain ⟨heeded, follows⟩ := follows ⟨on, Nat.le_trans tells'.failures calm.sent, Nat.le_trans calm.ahead fewer'⟩
    obtain ⟨heeded', follows'⟩ := follows' calm'
    exact ⟨heeded ++ heeded', follows.trans follows'⟩

end Moment

theorem Peer.GoesOn.follows {p q : Peer} {told : List SyncMessage} (h : p.GoesOn q told) (on : q.isFinished = false) :
    p.Follows q [] told := by
  obtain ⟨held, phase⟩ : q.held = p.held ∧ q.phase = p.phase :=
    h.still.resolve_left (Bool.eq_false_iff.mp on)
  exact ⟨h.quiet, held.symm, phase⟩

/-- **A deed of a calm step** follows messages, and turns nothing by itself. -/
theorem Deed.leads {cause : Cause} {a b : Moment} (h : Deed cause a b) : a.Leads b where
  stays := h.finished
  shortens := h.shortens
  tells := by
    obtain ⟨told, turn⟩ := h.turn
    refine ⟨told, turn.tells, fun calm => ?_⟩
    cases turn with
    | @heeds m _ held follows => exact ⟨[m], fun _ mem => absurd mem List.not_mem_nil, held, follows⟩
    | goesOn goes => exact ⟨[], goes.follows calm.on⟩
    | obeys next orders =>
      -- The command is not ahead any more.
      obtain ⟨c, rest, now, first, later, -⟩ := h.ran
      rw [first] at next
      cases next
      have fewer := later.sublist.countP_le (p := (·.turns))
      have ahead := calm.ahead
      rw [first, List.countP_cons_of_pos orders.turns] at ahead
      exact absurd (Nat.le_trans ahead fewer) (Nat.not_succ_le_self _)

theorem Path.leads {a b : Moment} {l : List (Cause × Peer)} (h : Path a l b) : a.Leads b :=
  h.preserves Moment.Leads.refl Moment.Leads.trans Deed.leads

namespace Peer

/-- How a peer goes on in a calm action. -/
inductive Goes (p : Peer) (action : PeerAction) : List SyncMessage → Prop where
  /-- It follows messages. -/
  | follows {heeded told : List SyncMessage} (quiet : ∀ m ∈ told, m.steers = false)
      (held : p.held ++ p.fetches action = heeded ++ (p.perform action).held)
      (phase : (p.perform action).phase = heeded.foldl PeerPhase.follow p.phase)
      (unasked : (∃ dt, action = .step dt) ∨ (p.perform action).phase = p.phase) : Goes p action told
  /-- It turns the session and says so. -/
  | turns {m : SyncMessage} (signals : p.Signals action m) (held : p.held ++ p.fetches action = (p.perform action).held)
      (phase : (p.perform action).phase = p.phase.follow m) (turned : (p.perform action).phase ≠ p.phase) :
      Goes p action [m]

/-- **What a peer tells and follows in an action.** -/
theorem goes_perform (p : Peer) (action : PeerAction) : ∃ (q : Peer) (told : List SyncMessage),
    q.link.nextSeq = p.link.nextSeq ∧ q.config = p.config ∧ q.stats.sendFailures = p.stats.sendFailures ∧
      q.Tells (p.perform action) told ∧ (Moment.Calm ⟨p, []⟩ ⟨p.perform action, []⟩ → p.Goes action told) := by
  rcases action.step_cases with ⟨dt, rfl⟩ | notStep
  · obtain ⟨told, tells, follows⟩ := (p.advanced dt).path_stages.leads.tells
    refine ⟨(p.advanced dt).received, told, rfl, rfl, rfl, ?_, fun calm => ?_⟩
    all_goals rw [perform_step] at *
    · exact tells
    · obtain ⟨heeded, quiet, held, phase⟩ := follows ⟨calm.on, calm.sent, calm.ahead⟩
      rw [← perform_step] at held phase
      exact .follows quiet held phase (Or.inl ⟨dt, rfl⟩)
  · obtain ⟨q, told, hears, goes⟩ := p.turn_perform notStep
    obtain ⟨config, failures, held, phase⟩ := hears.same
    have nothing := p.fetches_of_notStep notStep
    refine ⟨q, told, hears.nextSeq, config, failures, ?_, fun calm => ?_⟩
    · rcases goes with goes | ⟨m, turned, -⟩
      · exact goes.toTells
      · exact turned.toTells
    · rcases goes with goes | ⟨m, turned, signals⟩
      · have follows := goes.follows calm.on
        have held' : p.held ++ p.fetches action = [] ++ (p.perform action).held := by
          rw [nothing, List.append_nil, ← held]
          exact follows.held
        have same := follows.phase.trans phase
        exact .follows follows.quiet held' same (Or.inr same)
      · obtain rfl : told = [m] := turned.tells.resolve_right fun refused =>
          absurd (Nat.lt_of_lt_of_le (failures ▸ refused.2) calm.sent) (Nat.lt_irrefl _)
        refine .turns signals ?_ (phase ▸ turned.follows) (phase ▸ turned.turned)
        rw [nothing, List.append_nil, ← held, turned.held]

/-- What never goes back. -/
structure Onward (p q : Peer) : Prop where
  config : q.config = p.config
  failures : p.stats.sendFailures ≤ q.stats.sendFailures
  finished : p.isFinished = true → q.isFinished = true
  shortens : p.Shortens q

theorem Onward.refl (p : Peer) : p.Onward p := ⟨rfl, Nat.le_refl _, id, List.suffix_refl _⟩

theorem onward_perform (p : Peer) (action : PeerAction) : p.Onward (p.perform action) := by
  obtain ⟨q, told, -, config, failures, tells, -⟩ := p.goes_perform action
  exact ⟨tells.config.trans config, failures ▸ tells.failures, p.finished_perform action, p.shortens_perform action⟩

end Peer

/-! ## Moves -/

/-- Whether the operator of a peer turns the session in an action. -/
def Peer.isTurnedBy (p : Peer) : PeerAction → Bool
  | .pause => p.phase = .running
  | .resume => p.phase = .paused
  | _ => false

/-- Where the phase stays the same, the operator has not turned the session. -/
theorem Peer.isTurnedBy_of_still {p : Peer} {action : PeerAction} (still : (p.perform action).phase = p.phase) :
    p.isTurnedBy action = false := by
  cases action with
  | pause =>
    rcases p.turn_pause with ⟨-, apart⟩ | ⟨-, told, turned⟩
    · exact decide_eq_false apart
    · exact absurd still turned.turned
  | resume =>
    rcases p.turn_resume with ⟨-, apart⟩ | ⟨-, told, turned⟩
    · exact decide_eq_false apart
    · exact absurd still turned.turned
  | step | submit | terminate | escape | transport | pollTransmit | requeueOutbound | drainNotifications => rfl

namespace Duet

variable {y : Duet} {m : DuetMove} {r : Role} {action : PeerAction}

/-- The peer that its operator turns in a move. -/
def turner? (y : Duet) : DuetMove → Option Role
  | .own r action _ => if (y.peer r).isTurnedBy action then some r else none
  | _ => none

theorem onward_move (y : Duet) (m : DuetMove) (r : Role) : (y.peer r).Onward ((y.move m).peer r) := by
  rcases y.move_cases m with idle | ⟨s, action, acts⟩
  · rw [(idle r).1]
    exact .refl _
  · have here : (y.peer s).Onward ((y.move m).peer s) := acts.here ▸ (y.peer s).onward_perform action
    have there : (y.peer s.other).Onward ((y.move m).peer s.other) := by
      rw [acts.there]
      exact .refl _
    exact Role.forall_of (P := fun r => (y.peer r).Onward ((y.move m).peer r)) s here there r

theorem turner?_of_apart (apart : ∀ s a isOwn, m ≠ .own s a isOwn) : y.turner? m = none := by
  cases m with
  | own s a isOwn => exact absurd rfl (apart s a isOwn)
  | reopen | connected | disconnected | transmit | receive => rfl

theorem Acts.turner? (h : y.Acts m r action) :
    y.turner? m = if (y.peer r).isTurnedBy action then some r else none := by
  rcases h.own with ⟨isOwn, rfl⟩ | ⟨notOwn, apart⟩
  · rfl
  · rw [turner?_of_apart apart]
    cases action with
    | transport | pollTransmit => rfl
    | step | submit | pause | resume | terminate | escape | requeueOutbound | drainNotifications => cases notOwn

end Duet

namespace Chronicle

variable {session : SessionId} {c c' : Chronicle} {x x' : Ends LinkEnd} {m : DuetMove}

/-- The peer at an end has followed messages, and has told nothing that turns the session. -/
structure Follows (c c' : Chronicle) (r : Role) (heeded told : List SyncMessage) : Prop where
  quiet : ∀ m ∈ told, m.steers = false
  phase : (c'.duet.peer r).phase = heeded.foldl PeerPhase.follow (c.duet.peer r).phase
  comes : c.toCome r = heeded ++ c'.toCome r
  still : (c'.duet.peer r.other).phase = (c.duet.peer r.other).phase
  more : c'.toCome r.other = c.toCome r.other ++ told

/-- The peer at an end has turned the session, and has told so. -/
structure Turns (c c' : Chronicle) (r : Role) (m : SyncMessage) : Prop where
  phase : (c'.duet.peer r).phase = (c.duet.peer r).phase.follow m
  turned : (c'.duet.peer r).phase ≠ (c.duet.peer r).phase
  comes : c'.toCome r = c.toCome r
  still : (c'.duet.peer r.other).phase = (c.duet.peer r.other).phase
  more : c'.toCome r.other = c.toCome r.other ++ [m]

/-- How a calm session goes on in a move, and whose operator turns it. -/
inductive Steps (c c' : Chronicle) : Option Role → Prop where
  | follows {r : Role} {heeded told : List SyncMessage} (follows : c.Follows c' r heeded told) : Steps c c' none
  /-- The host starts the session. -/
  | starts {t : SessionTime} (waiting : (c.duet.peer .host).phase = .waiting)
      (turns : c.Turns c' .host (.start t)) : Steps c c' none
  /-- An operator turns it. -/
  | turns {r : Role} {m : SyncMessage} (started : (c.duet.peer r).phase ≠ .waiting) (turns : c.Turns c' r m) :
      Steps c c' (some r)

/-- **How a calm session goes on in each move.** -/
theorem Kept.steps (before : c.Kept session x) (after : (c.move m).Kept session x')
    (roles : ∀ r, (c.duet.peer r).config.role = r)
    (calm : ∀ r, Moment.Calm ⟨c.duet.peer r, []⟩ ⟨(c.duet.move m).peer r, []⟩) :
    c.Steps (c.move m) (c.duet.turner? m) := by
  rcases c.duet.move_cases m with idle | ⟨r, action, acts⟩
  · have same : ∀ r, (c.move m).toCome r = c.toCome r ++ [] := fun r => by
      have said := said_still (c := c) (idle r.other).1
      exact before.toCome_still (idle r).1 (idle r).2.1 (said.trans (List.append_nil _).symm)
    have comes : c.toCome .host = [] ++ (c.move m).toCome .host := ((same .host).trans (List.append_nil _)).symm
    have phase : ((c.move m).duet.peer .host).phase = [].foldl PeerPhase.follow (c.duet.peer .host).phase :=
      congrArg Peer.phase (idle .host).1
    rw [Duet.turner?_of_apart (idle .host).2.2]
    exact .follows (r := .host) ⟨fun _ mem => absurd mem List.not_mem_nil, phase, comes,
      congrArg Peer.phase (idle .guest).1, same .guest⟩
  · obtain ⟨q, told, nextSeq, -, -, tells, goes⟩ := (c.duet.peer r).goes_perform action
    rw [acts.turner?]
    have goes := goes (acts.here ▸ calm r)
    have still : ((c.move m).duet.peer r.other).phase = (c.duet.peer r.other).phase := congrArg Peer.phase acts.there
    have said : (c.move m).said.get r = c.said.get r ++ told := after.said_move (acts.here ▸ tells) nextSeq
    have more : (c.move m).toCome r.other = c.toCome r.other ++ told :=
      before.toCome_still acts.there acts.nothing (by rw [Role.other_other, said])
    have comes : ∀ heeded, (c.duet.peer r).held ++ (c.duet.peer r).fetches action =
        heeded ++ ((c.duet.peer r).perform action).held → c.toCome r = heeded ++ (c.move m).toCome r :=
      fun heeded split => before.toCome_act acts.fetches (said_still acts.there) (acts.here ▸ split)
    have here : (c.move m).duet.peer r = (c.duet.peer r).perform action := acts.here
    cases goes with
    | follows quiet held phase unasked =>
      have unturned : (c.duet.peer r).isTurnedBy action = false := by
        rcases unasked with ⟨dt, rfl⟩ | same
        · rfl
        · exact Peer.isTurnedBy_of_still same
      rw [unturned]
      exact .follows ⟨quiet, here ▸ phase, comes _ held, still, more⟩
    | @turns m' signals held phase turned =>
      have unheeded : (c.move m).toCome r = c.toCome r := (comes [] held).symm
      rw [← here] at phase turned
      have turns : c.Turns (c.move m) r m' := ⟨phase, turned, unheeded, still, more⟩
      cases signals with
      | pause =>
        have running : (c.duet.peer r).phase = .running := PeerPhase.running_of_pause (phase ▸ turned)
        have asked : (c.duet.peer r).isTurnedBy .pause = true := decide_eq_true running
        rw [asked]
        exact .turns (by rw [running]; exact nofun) turns
      | resume =>
        have paused : (c.duet.peer r).phase = .paused := PeerPhase.paused_of_resume (phase ▸ turned)
        have asked : (c.duet.peer r).isTurnedBy .resume = true := decide_eq_true paused
        rw [asked]
        exact .turns (by rw [paused]; exact nofun) turns
      | start e t waiting host =>
        obtain rfl : r = .host := (roles r).symm.trans host
        exact .starts waiting turns

/-! ## Runs -/

/-- The last turn of an operator in a run: the peer, and the chronicle right after the move. -/
def lastTurn (c : Chronicle) : List DuetMove → Option (Role × Chronicle)
  | [] => none
  | m :: rest => ((c.move m).lastTurn rest).or ((c.duet.turner? m).map (·, c.move m))

/-- The phase for which a peer is bound. -/
def destined (c : Chronicle) (r : Role) : PeerPhase := (c.toCome r).foldl PeerPhase.follow (c.duet.peer r).phase

/-- Where the peers are bound for after the last turn of an operator. -/
structure Bound (c : Chronicle) (last : Option (Role × Chronicle)) : Prop where
  /-- Before the host starts the session nothing turns it. -/
  waits : (c.duet.peer .host).phase = .waiting →
    (c.duet.peer .guest).phase = .waiting ∧ ∀ r, ∀ m ∈ c.toCome r, m.steers = false
  started : (c.duet.peer .host).phase ≠ .waiting → ∀ r, c.destined r ≠ .waiting
  unturned : last = none → ∀ r, c.destined r ≠ .paused
  /-- The other peer is bound for where the operator has left the session, and the peer of the operator for where what
  was on its way to it leads from there. -/
  turned : ∀ r then', last = some (r, then') → (c.duet.peer .host).phase ≠ .waiting ∧
    c.destined r.other = (then'.duet.peer r).phase ∧ c.destined r = then'.destined r

variable {last : Option (Role × Chronicle)} {r : Role}

/-- A peer is bound for no end. -/
theorem isFinished_destined (c : Chronicle) (r : Role) : (c.destined r).isFinished = (c.duet.peer r).isFinished :=
  PeerPhase.isFinished_foldl_follow _ _

/-- Where nothing that turns the session comes to a peer, it is where it is bound for. -/
theorem destined_of_quiet (quiet : ∀ m ∈ c.toCome r, m.steers = false) : c.destined r = (c.duet.peer r).phase :=
  PeerPhase.foldl_follow_of_quiet quiet _

/-- **Following changes nothing** about where the peers are bound for. -/
theorem Follows.destined {heeded told : List SyncMessage} (h : c.Follows c' r heeded told) :
    ∀ s, c'.destined s = c.destined s := by
  refine Role.forall_of r ?_ ?_
  · rw [Chronicle.destined, Chronicle.destined, h.comes, List.foldl_append, h.phase]
  · rw [Chronicle.destined, Chronicle.destined, h.more, h.still, List.foldl_append,
      PeerPhase.foldl_follow_of_quiet h.quiet]

/-- While nothing that turns the session comes to the peers, none of them leaves its phase. -/
theorem Follows.silent {heeded told : List SyncMessage} (h : c.Follows c' r heeded told)
    (silent : ∀ s, ∀ m ∈ c.toCome s, m.steers = false) :
    (∀ s, (c'.duet.peer s).phase = (c.duet.peer s).phase) ∧ ∀ s, ∀ m ∈ c'.toCome s, m.steers = false := by
  have here := silent r
  rw [h.comes] at here
  have same : (c'.duet.peer r).phase = (c.duet.peer r).phase := by
    rw [h.phase, PeerPhase.foldl_follow_of_quiet fun m mem => here m (List.mem_append_left _ mem)]
  have later : ∀ m ∈ c'.toCome r, m.steers = false := fun m mem => here m (List.mem_append_right _ mem)
  have later' : ∀ m ∈ c'.toCome r.other, m.steers = false := fun m mem =>
    (List.mem_append.mp (h.more ▸ mem)).elim (silent r.other m) (h.quiet m)
  exact ⟨Role.forall_of r same h.still, Role.forall_of r later later'⟩

/-- A session that has been started is not left waiting. -/
theorem Follows.started {heeded told : List SyncMessage} (h : c.Follows c' r heeded told) (s : Role)
    (started : (c.duet.peer s).phase ≠ .waiting) : (c'.duet.peer s).phase ≠ .waiting := by
  revert s
  refine Role.forall_of r ?_ ?_
  · exact fun started => h.phase ▸ PeerPhase.foldl_follow_ne_waiting started heeded
  · exact fun started => h.still ▸ started

/-- At the beginning both peers wait. -/
theorem Bound.fresh (waiting : ∀ r, (c.duet.peer r).phase = .waiting) (silent : ∀ r, c.toCome r = []) :
    c.Bound none where
  waits _ := ⟨waiting .guest, fun r m mem => absurd (silent r ▸ mem) List.not_mem_nil⟩
  started started := absurd (waiting .host) started
  unturned _ r := by
    rw [destined, silent, waiting]
    exact nofun
  turned _ _ := nofun

theorem Bound.follows (h : c.Bound last) {heeded told : List SyncMessage} (follows : c.Follows c' r heeded told) :
    c'.Bound last := by
  have destined := follows.destined
  have waiting : (c'.duet.peer .host).phase = .waiting ↔ (c.duet.peer .host).phase = .waiting :=
    ⟨fun waits => Decidable.of_not_not fun started => follows.started .host started waits,
      fun waits => ((follows.silent (h.waits waits).2).1 .host).trans waits⟩
  refine ⟨fun waits => ?_, fun started s => ?_, fun none s => ?_, fun s then' same => ?_⟩
  · obtain ⟨guest, silent⟩ := h.waits (waiting.mp waits)
    obtain ⟨same, silent'⟩ := follows.silent silent
    exact ⟨(same .guest).trans guest, silent'⟩
  · exact destined s ▸ h.started (fun waits => started (waiting.mpr waits)) s
  · exact destined s ▸ h.unturned none s
  · rw [destined, destined, Ne, waiting]
    exact h.turned s then' same

/-- When the host starts the session, both peers are bound to run. -/
theorem Bound.starts (h : c.Bound last) {t : SessionTime} (waiting : (c.duet.peer .host).phase = .waiting)
    (turns : c.Turns c' .host (.start t)) : c'.Bound last := by
  obtain ⟨guest, silent⟩ := h.waits waiting
  have phase : (c'.duet.peer .host).phase = .running := by
    rw [turns.phase, PeerPhase.follow_start, if_pos waiting]
  have bound : ∀ s, c'.destined s = .running := by
    refine Role.forall_of .host ?_ ?_
    · rw [destined, turns.comes, phase, PeerPhase.foldl_follow_of_quiet (silent .host)]
    · have still : (c'.duet.peer Role.host.other).phase = .waiting := turns.still.trans guest
      rw [destined, turns.more, still, List.foldl_append, PeerPhase.foldl_follow_of_quiet (silent _)]
      rfl
  refine ⟨fun waits => ?_, fun _ s => ?_, fun _ s => ?_, fun s then' same => ?_⟩
  · rw [phase] at waits
    cases waits
  · rw [bound]
    exact nofun
  · rw [bound]
    exact nofun
  · exact absurd waiting (h.turned s then' same).1

/-- When an operator turns the session, the other peer is bound for the same phase. -/
theorem Bound.turns (h : c.Bound last) {m : SyncMessage} (on : (c.duet.peer r.other).isFinished = false)
    (started : (c.duet.peer r).phase ≠ .waiting) (turns : c.Turns c' r m) : c'.Bound (some (r, c')) := by
  have started' : (c'.duet.peer r).phase ≠ .waiting := turns.phase ▸ PeerPhase.follow_ne_waiting started m
  have host : (c.duet.peer .host).phase ≠ .waiting := by
    cases r with
    | host => exact started
    | guest => exact fun waiting => started (h.waits waiting).1
  have host' : (c'.duet.peer .host).phase ≠ .waiting := by
    cases r with
    | host => exact started'
    | guest => exact fun waiting => host (turns.still.symm.trans waiting)
  have there : c'.destined r.other = (c'.duet.peer r).phase := by
    have turned := turns.turned
    rw [turns.phase] at turned ⊢
    rw [destined, turns.more, turns.still, List.foldl_append]
    exact PeerPhase.follow_of_turned turned started (h.started host r.other) ((c.isFinished_destined r.other).trans on)
  have here : c'.destined r ≠ .waiting := PeerPhase.foldl_follow_ne_waiting started' _
  refine ⟨fun waits => absurd waits host', fun _ s => ?_, nofun, fun s then' same => ?_⟩
  · have there : c'.destined r.other ≠ .waiting := there ▸ started'
    exact Role.forall_of (P := fun s => c'.destined s ≠ .waiting) r here there s
  · cases same
    exact ⟨host', there, rfl⟩

/-- **Each move keeps it.** -/
theorem Bound.steps (h : c.Bound last) (on : ∀ r, (c.duet.peer r).isFinished = false) {turner : Option Role}
    (steps : c.Steps c' turner) : c'.Bound ((turner.map (·, c')).or last) := by
  cases steps with
  | follows follows => exact h.follows follows
  | starts waiting turns => exact h.starts waiting turns
  | @turns r m started turns => exact h.turns (on r.other) started turns

/-- No more commands that turn the session are to be run than at the beginning. -/
def Most (c : Chronicle) (commands : Nat) : Prop :=
  ∀ r, (c.duet.peer r).queue.pending.countP (·.turns) ≤ commands

theorem Most.move {commands : Nat} (most : c.Most commands) (m : DuetMove) : (c.move m).Most commands := fun r =>
  Nat.le_trans (c.duet.onward_move m r).shortens.sublist.countP_le (most r)

/-- The session is not over, no message has been refused, and as many commands that turn the session as at the
beginning are still to be run at both ends. -/
structure Calm (c : Chronicle) (commands : Nat) : Prop where
  on : ∀ r, (c.duet.peer r).isFinished = false
  sent : ∀ r, (c.duet.peer r).stats.sendFailures = 0
  pending : ∀ r, (c.duet.peer r).queue.pending.countP (·.turns) = commands

instance decidableCalm (c : Chronicle) (commands : Nat) : Decidable (c.Calm commands) :=
  decidable_of_iff ((∀ r, (c.duet.peer r).isFinished = false) ∧ (∀ r, (c.duet.peer r).stats.sendFailures = 0) ∧
      ∀ r, (c.duet.peer r).queue.pending.countP (·.turns) = commands)
    ⟨fun ⟨on, sent, pending⟩ => ⟨on, sent, pending⟩, fun calm => ⟨calm.on, calm.sent, calm.pending⟩⟩

/-- A calm run was calm before its last move. -/
theorem Calm.before {commands : Nat} (calm : (c.move m).Calm commands) (most : c.Most commands) : c.Calm commands where
  on r := Bool.eq_false_iff.mpr fun ended => by
    have isOver := (c.duet.onward_move m r).finished ended
    have on : ((c.duet.move m).peer r).isFinished = false := calm.on r
    rw [on] at isOver
    cases isOver
  sent r := Nat.le_zero.mp (calm.sent r ▸ (c.duet.onward_move m r).failures)
  pending r := by
    have fewer := (c.duet.onward_move m r).shortens.sublist.countP_le (p := (·.turns))
    exact Nat.le_antisymm (most r) (calm.pending r ▸ fewer)

theorem Calm.of_after {commands : Nat} {moves : List DuetMove} (calm : (c.after moves).Calm commands)
    (most : c.Most commands) : c.Calm commands := by
  induction moves generalizing c with
  | nil => exact calm
  | cons m rest ih => exact (ih (c := c.move m) calm (most.move m)).before most

/-- **A whole calm run keeps it.** -/
theorem Bound.after {commands : Nat} {moves : List DuetMove} (h : c.Bound last) (kept : c.Kept session x)
    (roles : ∀ r, (c.duet.peer r).config.role = r) (most : c.Most commands) (few : (c.after moves).Few)
    (calm : (c.after moves).Calm commands) : (c.after moves).Bound ((c.lastTurn moves).or last) := by
  induction moves generalizing c x last with
  | nil => exact h
  | cons m rest ih =>
    have now : c.Calm commands := calm.of_after most
    have next : (c.move m).Calm commands := .of_after calm (most.move m)
    have few' : (c.move m).Few := .after few
    obtain ⟨x', kept', -⟩ := kept.move m few'
    have moved := h.steps now.on (kept.steps kept' roles fun r =>
      ⟨next.on r, by rw [← duet_move, next.sent r]; exact Nat.zero_le _, (now.pending r).trans_le (next.pending r).ge⟩)
    have roles' : ∀ r, ((c.move m).duet.peer r).config.role = r := fun r =>
      (congrArg PeerConfig.role (c.duet.onward_move m r).config).trans (roles r)
    rw [lastTurn, Option.or_assoc]
    exact ih moved kept' roles' (most.move m) few calm

/-- **The peers are bound for one phase** exactly if the last turn of an operator is not turned any more. -/
theorem Bound.agree_iff (h : c.Bound last) (on : ∀ r, (c.duet.peer r).isFinished = false) :
    c.destined .host = c.destined .guest ↔ ∀ turn ∈ last, turn.2.destined turn.1 = (turn.2.duet.peer turn.1).phase := by
  cases last with
  | none =>
    -- No operator has turned the session, so both peers wait or both are bound to run.
    refine iff_of_true ?_ fun turn mem => absurd mem (Option.not_mem_none turn)
    by_cases waiting : (c.duet.peer .host).phase = .waiting
    · obtain ⟨guest, silent⟩ := h.waits waiting
      rw [destined_of_quiet (silent .host), destined_of_quiet (silent .guest), waiting, guest]
    · have runs : ∀ r, c.destined r = .running := fun r => by
        have started := h.started waiting r
        have unturned := h.unturned rfl r
        have on := (c.isFinished_destined r).trans (on r)
        cases same : c.destined r with
        | running => rfl
        | waiting => exact absurd same started
        | paused => exact absurd same unturned
        | ended | aborted =>
          rw [same] at on
          cases on
      rw [runs, runs]
  | some turn =>
    obtain ⟨r, then'⟩ := turn
    obtain ⟨-, there, here⟩ := h.turned r then' rfl
    have agree : c.destined .host = c.destined .guest ↔ c.destined r = c.destined r.other := by
      cases r with
      | host => exact Iff.rfl
      | guest => exact eq_comm
    rw [agree, there, here]
    constructor
    · intro same turn mem
      obtain rfl : (r, then') = turn := Option.some.inj mem
      exact same
    · exact fun same => same (r, then') (Option.mem_some_self _)

end Chronicle

/-- **The peers agree** on the phase of the session, when all that turns it has been delivered and reconciled, exactly
if what was on its way to the peer whose operator turned it last, when that happened, does not turn it any more. -/
theorem Meeting.phases_agree_iff {w : Meeting} {moves : List DuetMove}
    (joins : w.configs.guest.session = w.configs.host.session)
    (room : ∀ r, (w.configs.get r).link.outboundCapacity < UInt64.size) (roles : ∀ r, (w.configs.get r).role = r)
    (few : (w.chronicle.after moves).Few) (calm : (w.chronicle.after moves).Calm (w.script.countP (·.turns)))
    (delivered : ∀ r, ∀ m ∈ (w.chronicle.after moves).toCome r, m.steers = false) :
    ((w.chronicle.after moves).duet.peer .host).phase = ((w.chronicle.after moves).duet.peer .guest).phase ↔
      ∀ turn ∈ w.chronicle.lastTurn moves, turn.2.destined turn.1 = (turn.2.duet.peer turn.1).phase := by
  have kept := (w.kept (fun r => by cases r; exacts [rfl, joins]) room).1
  have roles : ∀ r, (w.chronicle.duet.peer r).config.role = r := fun r => by
    have role := roles r
    cases r <;> exact role
  have most : w.chronicle.Most (w.script.countP (·.turns)) := fun r => by
    cases r <;> exact ((List.mergeSort_perm w.script _).countP_eq _).le
  have start : w.chronicle.Bound none :=
    .fresh (fun r => by cases r <;> rfl) (fun r => by cases r <;> rfl)
  have bound := start.after kept roles most few calm
  rw [Option.or_none] at bound
  have arrived : ∀ r, ((w.chronicle.after moves).duet.peer r).phase = (w.chronicle.after moves).destined r := fun r =>
    (Chronicle.destined_of_quiet (delivered r)).symm
  rw [arrived, arrived]
  exact bound.agree_iff calm.on

/-- What the peers have to tell each other arrives, and both reconcile it. -/
def exchanged : List DuetMove :=
  [.transmit .host, .transmit .guest, .receive .guest, .receive .guest, .receive .host,
    .step .host .zero, .step .guest .zero]

/-- Both operators pause before they hear of each other. -/
def bothPause : List DuetMove := trackingStart ++ [.pause .host, .pause .guest] ++ exchanged

/-- The host's operator has resumed again when the guest's pauses, and neither peer has heard of it. -/
def resumeCrossed : List DuetMove :=
  trackingStart ++ [.pause .host, .resume .host, .pause .guest] ++ exchanged

/-- The guest's operator turns the session last, and the pause of the host, which was on its way, finds the guest
paused. -/
theorem Meeting.phases_agree_iff_bothPause :
    (∃ turn ∈ trackingMeeting.chronicle.lastTurn bothPause, turn.1 = .guest ∧ turn.2.toCome .guest ≠ []) ∧
    ((trackingMeeting.chronicle.after bothPause).duet.peer .host).phase =
      ((trackingMeeting.chronicle.after bothPause).duet.peer .guest).phase := by
  have facts : (trackingMeeting.chronicle.after bothPause).Few ∧
      (trackingMeeting.chronicle.after bothPause).Calm (trackingMeeting.script.countP (·.turns)) ∧
      (∀ r, ∀ m ∈ (trackingMeeting.chronicle.after bothPause).toCome r, m.steers = false) ∧
      (∃ turn ∈ trackingMeeting.chronicle.lastTurn bothPause, turn.1 = .guest ∧ turn.2.toCome .guest ≠ []) ∧
      ∀ turn ∈ trackingMeeting.chronicle.lastTurn bothPause,
        turn.2.destined turn.1 = (turn.2.duet.peer turn.1).phase := by
    rw [Meeting.chronicle, Meeting.start_of_sorted (by decide)]
    decide +kernel
  obtain ⟨few, calm, delivered, crossed, last⟩ := facts
  exact ⟨crossed, (Meeting.phases_agree_iff rfl (fun r => by cases r <;> decide) (fun r => by cases r <;> rfl) few calm
    delivered).mpr last⟩

/-- The guest does not heed the pause of the host, for it is paused, but it does heed the resume behind it; and the host
heeds the pause of the guest. -/
theorem Meeting.not_phases_agree_resumeCrossed :
    (trackingMeeting.chronicle.after resumeCrossed).Calm (trackingMeeting.script.countP (·.turns)) ∧
    (∀ r, ∀ m ∈ (trackingMeeting.chronicle.after resumeCrossed).toCome r, m.steers = false) ∧
    ((trackingMeeting.chronicle.after resumeCrossed).duet.peer .host).phase = .paused ∧
    ((trackingMeeting.chronicle.after resumeCrossed).duet.peer .guest).phase = .running := by
  rw [Meeting.chronicle, Meeting.start_of_sorted (by decide)]
  decide +kernel

end Tandem
