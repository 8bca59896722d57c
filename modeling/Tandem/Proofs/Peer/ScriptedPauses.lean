import Tandem.Proofs.Peer.Conversation
/-!
# How often a scripted pause pauses a session

Both peers run one script.  A command that pauses the session reaches a peer twice: through its own queue and through
the message in which the other peer tells that it has paused.  Both may pause it, each at most once for a command: own
commands are run once (`Deed.ran`), and the other peer tells that it has paused only when a command of its own has
paused it, if no operator has.  So a peer is paused at most twice for each command of the script that pauses the
session, and at most once if no message of the other peer finds it running (`Meeting.pauses_le`).

The argument is a count with two potentials: the commands ahead that pause the session, and the messages that are held
and tell a pause.
-/

namespace Tandem

/-- Whether a command pauses the session. -/
def ScenarioCommand.pauses (c : ScenarioCommand) : Bool := c.payload = .act .session .pause

/-- Whether a message tells that the session has been paused. -/
def SyncMessage.pauses : SyncMessage → Bool
  | pause _ => true
  | _ => false

/-- Whether an operator pauses the session in a move. -/
def DuetMove.pauses : DuetMove → Bool
  | own _ .pause _ => true
  | _ => false

theorem SyncMessage.pauses_of_quiet {m : SyncMessage} (quiet : m.steers = false) : m.pauses = false := by
  cases m with
  | start | pause | resume => cases quiet
  | delta | forward | heartbeat | hello | finish => rfl

/-- Only a message that tells a pause pauses a session. -/
theorem PeerPhase.pauses_of_follow {m : SyncMessage} (h : running.follow m = paused) : m.pauses = true := by
  cases m with
  | pause => rfl
  | start | resume | delta | forward | heartbeat | hello | finish => cases h

namespace Peer

/-! ## Counting -/

/-- The peers that an action goes through, each with what has led to it. -/
def moments (p : Peer) : PeerAction → List (Cause × Peer)
  | .step dt => (p.advanced dt).stages
  | action => [(.other, p.perform action)]

/-- How often a running session is paused along a list of peers, by certain causes. -/
def pausings (why : Cause → Bool) : Peer → List (Cause × Peer) → Nat
  | _, [] => 0
  | p, (cause, q) :: rest =>
    (if why cause ∧ p.phase = .running ∧ q.phase = .paused then 1 else 0) + pausings why q rest

/-- By one cause or another. -/
theorem pausings_all (p : Peer) (l : List (Cause × Peer)) : pausings (fun _ => true) p l =
    pausings (· = .command) p l + pausings (· = .message) p l + pausings (· = .other) p l := by
  induction l generalizing p with
  | nil => rfl
  | cons first rest ih =>
    obtain ⟨cause, q⟩ := first
    unfold pausings
    rw [ih q]
    cases cause <;> simp <;> omega

/-- Only the phase at the beginning counts. -/
theorem pausings_of_phase (why : Cause → Bool) {p q : Peer} (same : p.phase = q.phase) (l : List (Cause × Peer)) :
    pausings why p l = pausings why q l := by
  cases l with
  | nil => rfl
  | cons first rest =>
    unfold pausings
    rw [same]

end Peer

/-- What is known of the pauses between two moments. -/
structure Moment.Accounts (a : Moment) (l : List (Cause × Peer)) (b : Moment) : Prop where
  /-- Each pause of the script uses a command up. -/
  script : Peer.pausings (· = .command) a.peer l + b.ahead.countP (·.pauses) ≤ a.ahead.countP (·.pauses)
  /-- Each pause of the other peer uses a message up. -/
  heard : Peer.pausings (· = .message) a.peer l + b.peer.held.countP (·.pauses) ≤ a.peer.held.countP (·.pauses)
  others : Peer.pausings (· = .other) a.peer l = 0
  /-- The peer tells of no pause but those of the script. -/
  told : ∃ told, a.peer.Tells b.peer told ∧ told.countP (·.pauses) ≤ Peer.pausings (· = .command) a.peer l

/-- Nothing is paused where the course of the session goes on. -/
theorem Peer.GoesOn.not_pausing {p q : Peer} {told : List SyncMessage} (h : p.GoesOn q told) :
    ¬ (p.phase = .running ∧ q.phase = .paused) := by
  rintro ⟨running, paused⟩
  rcases h.still with isOver | ⟨-, same⟩
  · rw [Peer.isFinished, paused] at isOver
    cases isOver
  · rw [same, running] at paused
    cases paused

theorem Peer.GoesOn.countP_told {p q : Peer} {told : List SyncMessage} (h : p.GoesOn q told) :
    told.countP (·.pauses) = 0 :=
  List.countP_eq_zero.mpr fun m mem => by
    rw [SyncMessage.pauses_of_quiet (h.quiet m mem)]
    exact Bool.false_ne_true

/-- A peer tells of a pause only if it has paused. -/
theorem Peer.Turned.countP_told {p q : Peer} {m : SyncMessage} {told : List SyncMessage} (h : p.Turned q m told) :
    told.countP (·.pauses) ≤ if p.phase = .running ∧ q.phase = .paused then 1 else 0 := by
  rcases h.tells with rfl | ⟨rfl, -⟩
  · cases m with
    | pause t =>
      have follows := h.follows
      have turned := h.turned
      rw [PeerPhase.follow_pause] at follows
      by_cases running : p.phase = .running
      · rw [if_pos running] at follows
        rw [if_pos ⟨running, follows⟩]
        exact Nat.le_refl 1
      · rw [if_neg running] at follows
        exact absurd follows turned
    | start | resume | delta | forward | heartbeat | hello | finish => exact Nat.zero_le _
  · exact Nat.zero_le _

/-- **The account of a deed.** -/
theorem Deed.accounts {cause : Cause} {a b : Moment} (h : Deed cause a b) : a.Accounts [(cause, b.peer)] b := by
  have shorter : b.ahead.countP (·.pauses) ≤ a.ahead.countP (·.pauses) := h.shortens.sublist.countP_le
  obtain ⟨told, turn⟩ := h.turn
  have tells := turn.tells
  cases turn with
  | @heeds m _ held follows =>
    -- If the session is paused by it, the message that is not held any more tells a pause.
    refine ⟨by simpa [Peer.pausings] using shorter, ?_, by simp [Peer.pausings], [], tells, Nat.zero_le _⟩
    rw [held, List.countP_cons, Nat.add_comm]
    refine Nat.add_le_add_left ?_ _
    by_cases paused : a.peer.phase = .running ∧ b.peer.phase = .paused
    · have tellsPause : m.pauses = true := by
        rw [paused.1, paused.2] at follows
        exact PeerPhase.pauses_of_follow follows.symm
      simp [Peer.pausings, paused, tellsPause]
    · simp [Peer.pausings, paused]
  | goesOn goes =>
    have none : ∀ why, Peer.pausings why a.peer [(cause, b.peer)] = 0 := fun why => by
      simp only [Peer.pausings, goes.not_pausing, and_false, if_false]
    refine ⟨?_, ?_, none _, told, tells, ?_⟩
    · rw [none, Nat.zero_add]
      exact shorter
    · rw [none, Nat.zero_add]
      exact goes.held.sublist.countP_le
    · rw [goes.countP_told]
      exact Nat.zero_le _
  | @obeys c m _ next orders turned =>
    have byScript : Peer.pausings (· = .command) a.peer [(Cause.command, b.peer)] =
        if a.peer.phase = .running ∧ b.peer.phase = .paused then 1 else 0 := by
      simp [Peer.pausings]
    refine ⟨?_, ?_, by simp [Peer.pausings], told, tells, byScript ▸ turned.countP_told⟩
    · -- The command is run once: it is not among those that are ahead now.
      obtain ⟨c', rest, now, first, later, -⟩ := h.ran
      rw [first] at next ⊢
      cases next
      have fewer := later.sublist.countP_le (p := (·.pauses))
      rw [byScript, List.countP_cons, Nat.add_comm]
      refine Nat.add_le_add fewer ?_
      by_cases paused : a.peer.phase = .running ∧ b.peer.phase = .paused
      · have follows := turned.follows
        rw [paused.1, paused.2] at follows
        have pauses : c.pauses = true := by
          cases orders with
          | pause _ payload => exact decide_eq_true payload
          | resume => cases follows
        simp [paused, pauses]
      · simp [paused]
    · rw [turned.held]
      simp [Peer.pausings]

/-- **The account of a path** is the sum of those of its deeds. -/
theorem Path.accounts {a b : Moment} {l : List (Cause × Peer)} (h : Path a l b) : a.Accounts l b := by
  induction h with
  | nil a =>
    refine ⟨?_, ?_, rfl, [], (Peer.GoesOn.refl a.peer).toTells, Nat.le_refl 0⟩
    · simp [Peer.pausings]
    · simp [Peer.pausings]
  | @cons cause a b c l deed _ ih =>
    obtain ⟨script, heard, others, told, tells, few⟩ := deed.accounts
    obtain ⟨script', heard', others', told', tells', few'⟩ := ih
    have split : ∀ why, Peer.pausings why a.peer ((cause, b.peer) :: l) =
        Peer.pausings why a.peer [(cause, b.peer)] + Peer.pausings why b.peer l := fun why => by
      simp only [Peer.pausings, Nat.add_zero]
    refine ⟨?_, ?_, ?_, told ++ told', tells.trans tells', ?_⟩
    · rw [split]
      omega
    · rw [split]
      omega
    · rw [split, others, others']
    · rw [split, List.countP_append]
      omega

/-! ## Actions -/

namespace Peer

/-- The account of an action that is no pause of the operator. -/
structure Accounts (p : Peer) (action : PeerAction) : Prop where
  script : pausings (· = .command) p (p.moments action) + (p.perform action).queue.pending.countP (·.pauses) ≤
    p.queue.pending.countP (·.pauses)
  heard : pausings (· = .message) p (p.moments action) + (p.perform action).held.countP (·.pauses) ≤
    (p.held ++ p.fetches action).countP (·.pauses)
  others : pausings (· = .other) p (p.moments action) = 0
  told : (Frame.messages ((p.perform action).link.acceptedSince p.link)).countP (·.pauses) ≤
    pausings (· = .command) p (p.moments action)

/-- The account of a step is that of its deeds. -/
theorem accounts_step (p : Peer) (dt : Duration) : p.Accounts (.step dt) := by
  obtain ⟨script, heard, others, told, tells, few⟩ := (p.advanced dt).path_stages.accounts
  have count : ∀ why, pausings why p (p.moments (.step dt)) =
      pausings why (p.advanced dt).received (p.advanced dt).stages := fun why =>
    pausings_of_phase why (p := p) (q := (p.advanced dt).received) rfl (p.advanced dt).stages
  have accepted := (tells.accepted (p := p) rfl).1.sublist.countP_le (p := (·.pauses))
  refine ⟨?_, ?_, ?_, ?_⟩
  all_goals
    rw [count]
    try rw [perform_step]
    generalize (p.advanced dt).run = q at *
  · exact script
  · exact heard
  · exact others
  · exact Nat.le_trans accepted few

theorem moments_of_notStep (p : Peer) {action : PeerAction} (notStep : ∀ dt, action ≠ .step dt) :
    p.moments action = [(.other, p.perform action)] := by
  cases action with
  | step dt => exact absurd rfl (notStep dt)
  | submit | pause | resume | terminate | escape | transport | pollTransmit | requeueOutbound | drainNotifications =>
    rfl

/-- Where an action is no step, nothing is paused but by the operator. -/
theorem calm_perform (p : Peer) {action : PeerAction} (notStep : ∀ dt, action ≠ .step dt) (unasked : action ≠ .pause) :
    ¬ (p.phase = .running ∧ (p.perform action).phase = .paused) ∧ (p.perform action).held <:+ p.held ∧
      (Frame.messages ((p.perform action).link.acceptedSince p.link)).countP (·.pauses) = 0 := by
  obtain ⟨q, told, hears, goes⟩ := p.turn_perform notStep
  obtain ⟨-, -, held, phase⟩ := hears.same
  have accepted : q.Tells (p.perform action) told → told.countP (·.pauses) = 0 →
      (Frame.messages ((p.perform action).link.acceptedSince p.link)).countP (·.pauses) = 0 := fun tells few =>
    Nat.le_zero.mp (few ▸ (tells.accepted hears.nextSeq).1.sublist.countP_le)
  rw [← phase, ← held]
  rcases goes with goes | ⟨m, turned, signals⟩
  · exact ⟨goes.not_pausing, goes.held, accepted goes.toTells goes.countP_told⟩
  · have still : ¬ (q.phase = .running ∧ (p.perform action).phase = .paused) := by
      rintro ⟨running, paused⟩
      have follows := turned.follows
      rw [running, paused] at follows
      cases signals with
      | pause => exact unasked rfl
      | resume | start => cases follows
    have few := turned.countP_told
    rw [if_neg still] at few
    exact ⟨still, turned.held ▸ List.suffix_refl _, accepted turned.toTells (Nat.le_zero.mp few)⟩

/-- **The account of an action.** -/
theorem accounts_perform (p : Peer) {action : PeerAction} (unasked : action ≠ .pause) : p.Accounts action := by
  rcases action.step_cases with ⟨dt, rfl⟩ | notStep
  · exact p.accounts_step dt
  · obtain ⟨still, shorter, few⟩ := p.calm_perform notStep unasked
    have none : ∀ why, pausings why p (p.moments action) = 0 := fun why => by
      rw [p.moments_of_notStep notStep]
      simp only [pausings, still, and_false, if_false]
    refine ⟨?_, ?_, none _, ?_⟩
    · rw [none, Nat.zero_add]
      exact (p.shortens_perform action).sublist.countP_le
    · rw [none, Nat.zero_add, p.fetches_of_notStep notStep, List.append_nil]
      exact shorter.sublist.countP_le
    · rw [none, few]

end Peer

/-! ## Runs of two peers -/

namespace Duet

/-- The peers that an end goes through in a move, each with what has led to it. -/
def moments (x : Duet) (r : Role) : DuetMove → List (Cause × Peer)
  | .own s action _ => if s = r then (x.peer r).moments action else []
  | m => [(.other, (x.move m).peer r)]

/-- How often a peer is paused in a run, by certain causes. -/
def pauses (why : Cause → Bool) (r : Role) : Duet → List DuetMove → Nat
  | _, [] => 0
  | x, m :: rest => (x.peer r).pausings why (x.moments r m) + pauses why r (x.move m) rest

/-- By one cause or another. -/
theorem pauses_all (r : Role) (moves : List DuetMove) (x : Duet) : pauses (fun _ => true) r x moves =
    pauses (· = .command) r x moves + pauses (· = .message) r x moves + pauses (· = .other) r x moves := by
  induction moves generalizing x with
  | nil => rfl
  | cons m rest ih =>
    unfold pauses
    rw [Peer.pausings_all, ih]
    omega

variable {x : Duet} {m : DuetMove} {r : Role}

/-- A peer to which nothing happens is not paused. -/
theorem pausings_still (why : Cause → Bool) (still : (x.move m).peer r = x.peer r)
    (idle : ∀ action isOwn, m ≠ .own r action isOwn) : (x.peer r).pausings why (x.moments r m) = 0 := by
  have unpaused : ¬ ((x.peer r).phase = .running ∧ (x.peer r).phase = .paused) := by
    rintro ⟨running, paused⟩
    rw [running] at paused
    cases paused
  cases m with
  | own s action isOwn =>
    have apart : s ≠ r := by
      rintro rfl
      exact idle action isOwn rfl
    rw [moments, if_neg apart]
    rfl
  | reopen | connected | disconnected | transmit | receive =>
    simp only [moments, Peer.pausings, still, unpaused, and_false, if_false]

theorem Acts.moments {action : PeerAction} (h : x.Acts m r action) :
    x.moments r m = (x.peer r).moments action := by
  rcases h.own with ⟨isOwn, rfl⟩ | ⟨notOwn, apart⟩
  · exact if_pos rfl
  · have single : x.moments r m = [(.other, (x.move m).peer r)] := by
      cases m with
      | own s a isOwn => exact absurd rfl (apart s a isOwn)
      | reopen | connected | disconnected | transmit | receive => rfl
    rw [single, h.here]
    cases action with
    | transport | pollTransmit => rfl
    | step | submit | pause | resume | terminate | escape | requeueOutbound | drainNotifications => cases notOwn

end Duet

namespace Chronicle

/-- The account of a run for one peer: each pause of the script uses a command up, each other one a message, and no
pause is told but those of the script. -/
structure Accounts (c : Chronicle) (moves : List DuetMove) (r : Role) : Prop where
  script : c.duet.pauses (· = .command) r moves + ((c.after moves).duet.peer r).queue.pending.countP (·.pauses) ≤
    (c.duet.peer r).queue.pending.countP (·.pauses)
  heard : c.duet.pauses (· = .message) r moves + ((c.after moves).duet.peer r).held.countP (·.pauses) +
      (c.fetched.get r).countP (·.pauses) ≤
    (c.duet.peer r).held.countP (·.pauses) + ((c.after moves).fetched.get r).countP (·.pauses)
  others : c.duet.pauses (· = .other) r moves = 0
  told : ((c.after moves).said.get r).countP (·.pauses) ≤
    (c.said.get r).countP (·.pauses) + c.duet.pauses (· = .command) r moves

/-- Where nothing happens nothing counts. -/
theorem accounts_still {c : Chronicle} {m : DuetMove} {r : Role} (still : (c.duet.move m).peer r = c.duet.peer r)
    (nothing : c.duet.fetches r m = []) (idle : ∀ action isOwn, m ≠ .own r action isOwn) : c.Accounts [m] r := by
  have none : ∀ why, c.duet.pauses why r [m] = 0 := fun why => Duet.pausings_still why still idle
  have peer : (c.after [m]).duet.peer r = c.duet.peer r := still
  have fetched : (c.after [m]).fetched.get r = c.fetched.get r := by
    show (c.move m).fetched.get r = _
    rw [get_fetched_move, nothing, List.append_nil]
  have said : (c.after [m]).said.get r = c.said.get r := said_still still
  refine ⟨?_, ?_, none _, ?_⟩
  · rw [none, peer, Nat.zero_add]
  · rw [none, peer, fetched, Nat.zero_add]
  · rw [none, said, Nat.add_zero]

/-- The account of a move is that of the action. -/
theorem accounts_acts {c : Chronicle} {m : DuetMove} {r : Role} {action : PeerAction} (acts : c.duet.Acts m r action)
    (unasked : action ≠ .pause) : c.Accounts [m] r := by
  obtain ⟨script, heard, others, told⟩ := (c.duet.peer r).accounts_perform unasked
  have count : ∀ why, c.duet.pauses why r [m] = (c.duet.peer r).pausings why ((c.duet.peer r).moments action) :=
    fun why => congrArg ((c.duet.peer r).pausings why) acts.moments
  have peer : (c.after [m]).duet.peer r = (c.duet.peer r).perform action := acts.here
  have fetched : (c.after [m]).fetched.get r = c.fetched.get r ++ (c.duet.peer r).fetches action := by
    rw [← acts.fetches]
    exact get_fetched_move c m r
  have said : (c.after [m]).said.get r = c.said.get r ++
      Frame.messages (((c.duet.peer r).perform action).link.acceptedSince (c.duet.peer r).link) := by
    rw [← acts.here]
    exact get_said_move c m r
  refine ⟨?_, ?_, ?_, ?_⟩
  · rw [count, peer]
    exact script
  · rw [count, peer, fetched, List.countP_append]
    rw [List.countP_append] at heard
    omega
  · rw [count, others]
  · rw [count, said, List.countP_append]
    exact Nat.add_le_add_left told _

/-- **The account of a move** that is no pause of an operator. -/
theorem accounts_move (c : Chronicle) {m : DuetMove} (unasked : m.pauses = false) (r : Role) : c.Accounts [m] r := by
  rcases c.duet.move_cases m with idle | ⟨s, action, acts⟩
  · exact accounts_still (idle r).1 (idle r).2.1 fun action isOwn => (idle r).2.2 r action isOwn
  · refine Role.forall_of s (accounts_acts acts ?_) (accounts_still acts.there acts.nothing ?_) r
    · rintro rfl
      rcases acts.own with ⟨isOwn, rfl⟩ | ⟨notOwn, -⟩
      · cases unasked
      · cases notOwn
    · intro a isOwn is
      rcases acts.own with ⟨isOwn', is'⟩ | ⟨-, apart⟩
      · rw [is', DuetMove.own.injEq] at is
        exact absurd is.1 (by cases s <;> decide)
      · exact apart _ _ _ is

/-- **The account of a whole run** is the sum of those of its moves. -/
theorem accounts (c : Chronicle) {moves : List DuetMove} (unasked : ∀ m ∈ moves, m.pauses = false) (r : Role) :
    c.Accounts moves r := by
  induction moves generalizing c with
  | nil => exact ⟨by simp [Duet.pauses, after], by simp [Duet.pauses, after], rfl, by simp [Duet.pauses, after]⟩
  | cons m rest ih =>
    obtain ⟨script, heard, others, told⟩ := c.accounts_move (unasked m List.mem_cons_self) r
    obtain ⟨script', heard', others', told'⟩ := ih (c.move m) fun m' mem => unasked m' (List.mem_cons_of_mem m mem)
    have split : ∀ why, c.duet.pauses why r (m :: rest) = c.duet.pauses why r [m] + (c.move m).duet.pauses why r rest :=
      fun why => rfl
    have whole : c.after (m :: rest) = (c.move m).after rest := rfl
    have first : c.after [m] = c.move m := rfl
    rw [first] at script heard told
    refine ⟨?_, ?_, ?_, ?_⟩
    · rw [split, whole]
      omega
    · rw [split, whole]
      omega
    · rw [split, others, others']
    · rw [split, whole]
      omega

end Chronicle

/-- **A scripted pause pauses a peer at most twice**, in every run in which no operator pauses: by its own command at
most once for each in the script, and by a message of the other peer that finds it running at most once for each. -/
theorem Meeting.pauses_le {w : Meeting} {moves : List DuetMove}
    (joins : w.configs.guest.session = w.configs.host.session)
    (room : ∀ r, (w.configs.get r).link.outboundCapacity < UInt64.size) (few : (w.chronicle.after moves).Few)
    (unasked : ∀ m ∈ moves, m.pauses = false) (r : Role) :
    w.start.pauses (fun _ => true) r moves =
        w.start.pauses (· = .command) r moves + w.start.pauses (· = .message) r moves ∧
      w.start.pauses (· = .command) r moves ≤ w.script.countP (·.pauses) ∧
      w.start.pauses (· = .message) r moves ≤ w.script.countP (·.pauses) := by
  obtain ⟨x, kept, -⟩ := (w.kept (fun r => by cases r; exacts [rfl, joins]) room).1.after few
  have mine := w.chronicle.accounts unasked r
  have theirs := w.chronicle.accounts unasked r.other
  have pending : ∀ r, (w.chronicle.duet.peer r).queue.pending.countP (·.pauses) = w.script.countP (·.pauses) :=
    fun r => by cases r <;> exact (List.mergeSort_perm w.script _).countP_eq _
  have start : (w.chronicle.duet.peer r).held = [] ∧ w.chronicle.fetched.get r = [] ∧
      w.chronicle.said.get r.other = [] := by cases r <;> exact ⟨rfl, rfl, rfl⟩
  have commands : ∀ r, w.chronicle.Accounts moves r →
      w.start.pauses (· = .command) r moves ≤ w.script.countP (·.pauses) := fun r h => by
    have script := h.script
    rw [pending] at script
    exact Nat.le_trans (Nat.le_add_right _ _) script
  refine ⟨?_, commands r mine, ?_⟩
  · have others : w.start.pauses (· = .other) r moves = 0 := mine.others
    rw [Duet.pauses_all, others, Nat.add_zero]
  · -- What has paused the peer has been fetched, so the other peer has said it, and then its own script has paused it.
    have heard := mine.heard
    have told := theirs.told
    rw [start.1, start.2.1] at heard
    rw [start.2.2] at told
    have fetched := (kept.fetched_prefix r).sublist.countP_le (p := (·.pauses))
    have said := commands r.other theirs
    have same : w.chronicle.duet = w.start := rfl
    rw [same, List.countP_nil] at heard told
    omega

/-- A script that starts the tracking task, pauses the session after a second and ends it after half a minute. -/
def pausingScript : List ScenarioCommand :=
  [⟨0, 0, .act (.task .tracking) .start, 1, 0⟩, ⟨1, 0, .act .session .pause, 2, 1⟩,
    ⟨30, 0, .act .session .finish, 3, 2⟩]

/-- The peers of the examples. -/
def pausingMeeting : Meeting := ⟨⟨.simulated .host, .simulated .guest⟩, pausingScript⟩

/-- Both peers run, and the host comes to the second at which it pauses. -/
def hostPauses : List DuetMove := trackingStart ++ [.step .host (.ofMillis 1000)]

/-- The guest comes to that second by itself before it hears of the pause of the host. -/
def sideBySide : List DuetMove := hostPauses ++
  [.step .guest (.ofMillis 1000), .transmit .host, .receive .guest, .step .guest .zero]

/-- The pause of the host finds the guest half a second behind, and the guest's operator resumes. -/
def guestBehind : List DuetMove := hostPauses ++
  [.transmit .host, .receive .guest, .step .guest (.ofMillis 500), .resume .guest, .step .guest .zero]

/-- Whoever comes to the pause by itself is paused once. -/
theorem Meeting.pauses_le_sideBySide : pausingMeeting.start.pauses (· = .message) .guest sideBySide = 0 ∧
    pausingMeeting.start.pauses (fun _ => true) .guest sideBySide ≤ 1 := by
  have facts : (pausingMeeting.chronicle.after sideBySide).Few ∧
      pausingMeeting.start.pauses (· = .message) .guest sideBySide = 0 ∧ pausingScript.countP (·.pauses) = 1 := by
    rw [Meeting.chronicle, Meeting.start_of_sorted (by decide)]
    decide +kernel
  obtain ⟨few, unpaused, once⟩ := facts
  obtain ⟨total, commands, -⟩ :=
    Meeting.pauses_le rfl (fun r => by cases r <;> decide) few (by decide) .guest
  rw [unpaused, Nat.add_zero] at total
  exact ⟨unpaused, (total.trans_le commands).trans_eq once⟩

/-- The message pauses the guest, which still has its own command before it: when it goes on, it is paused again. -/
theorem Meeting.not_pauses_le_guestBehind : (∀ m ∈ guestBehind, m.pauses = false) ∧
    pausingMeeting.script.countP (·.pauses) = 1 ∧
    pausingMeeting.start.pauses (fun _ => true) .guest guestBehind = 2 := by
  rw [Meeting.start_of_sorted (by decide)]
  decide +kernel

end Tandem
