import Tandem.Proofs.Link.Line
/-!
# No gaps on an ordered connection

A link finds a frame to be missing only if the frame at hand was sent early: before its sender had taken the hello of
the other end on that connection.  Frames that are sent after the hello never come before their turn, because the
hello makes the sender queue everything that is still retained, and the first retained frame is at most the next one.

* `Gapless` says of numbers that none comes before its turn, and `reach` how far one gets with them.
* `LineEnd.Wired` is about one end, and `LineEnd.Steady` about one end and what the other one has received: the numbers
  that are on their way late, and those queued behind them, are gapless and reach as far as messages have been accepted.
* A sender changes its queue in few ways (`LinkEnd.Requeues`), and the receiver takes the first number or one of an
  early frame.  `Line.Safe` is what holds at any time.
-/

namespace Tandem

open Link

/-! ## Numbers that come in their turn -/

/-- When everything up to `t` has been taken, no number comes before its turn. -/
def Gapless : Nat → List Nat → Prop
  | _, [] => True
  | t, n :: rest => n ≤ t + 1 ∧ Gapless (max t n) rest

/-- How far one gets with numbers when everything up to `t` has been taken. -/
def reach : Nat → List Nat → Nat
  | t, [] => t
  | t, n :: rest => reach (max t n) rest

variable {t t' n k : Nat} {l l' : List Nat}

theorem reach_append (t : Nat) (l l' : List Nat) : reach t (l ++ l') = reach (reach t l) l' := by
  induction l generalizing t with
  | nil => rfl
  | cons n rest ih => exact ih (max t n)

theorem gapless_append : Gapless t (l ++ l') ↔ Gapless t l ∧ Gapless (reach t l) l' := by
  induction l generalizing t with
  | nil => exact ⟨fun h => ⟨trivial, h⟩, And.right⟩
  | cons n rest ih =>
    have more := ih (t := max t n)
    exact ⟨fun h => ⟨⟨h.1, (more.mp h.2).1⟩, (more.mp h.2).2⟩, fun h => ⟨h.1.1, more.mpr ⟨h.1.2, h.2⟩⟩⟩

theorem le_reach (t : Nat) (l : List Nat) : t ≤ reach t l := by
  induction l generalizing t with
  | nil => exact Nat.le_refl t
  | cons n rest ih => exact Nat.le_trans (Nat.le_max_left t n) (ih _)

theorem reach_mono (le : t ≤ t') : reach t l ≤ reach t' l := by
  induction l generalizing t t' with
  | nil => exact le
  | cons n rest ih => exact ih (by omega)

/-- Who has taken more misses less. -/
theorem Gapless.mono (h : Gapless t l) (le : t ≤ t') : Gapless t' l := by
  induction l generalizing t t' with
  | nil => trivial
  | cons n rest ih => exact ⟨Nat.le_trans h.1 (by omega), ih h.2 (by omega)⟩

/-- Consecutive numbers come in their turn when the first one does. -/
theorem gapless_range' (le : n ≤ t) : Gapless t (List.range' (n + 1) k) := by
  induction k generalizing n t with
  | zero => trivial
  | succ k ih =>
    rw [List.range'_succ]
    exact ⟨Nat.succ_le_succ le, ih (Nat.le_max_right t (n + 1))⟩

theorem le_reach_range' (le : n ≤ t) : n + k ≤ reach t (List.range' (n + 1) k) := by
  induction k generalizing n t with
  | zero => exact le
  | succ k ih =>
    rw [List.range'_succ, ← Nat.succ_add_eq_add_succ]
    exact ih (Nat.le_max_right t (n + 1))

/-- The numbers of consecutive frames. -/
theorem Frame.Consecutive.numbers {session : SessionId} {frames : List Frame} {s : Nat}
    (h : Frame.Consecutive session s frames) (fewer : s + frames.length < UInt64.size) :
    Frame.numbers frames = List.range' (s + 1) frames.length := by
  induction frames generalizing s with
  | nil => rfl
  | cons f rest ih =>
    have seq : f.seq = UInt64.ofNat (s + 1) := (h 0 f rfl).2.1
    rw [List.length_cons] at fewer ⊢
    have number : f.seq.toNat = s + 1 := by
      rw [seq]
      exact UInt64.toNat_ofNat_of_lt' (by omega)
    have numbered : f.seq ≠ unsequenced := by
      intro outside
      rw [outside] at number
      exact absurd number (Nat.succ_ne_zero s).symm
    rw [numbers_cons_of_numbered numbered, number, List.range'_succ, ih h.tail (by omega)]

/-- What is retained follows what has arrived, and goes on to the last number. -/
theorem LinkEnd.numbers_retained {a b : LinkEnd} {session : SessionId} {own peer : ParticipantId → Prop}
    (coherent : a.Coherent) (flow : Flow a b) (signed : a.Signed session own peer)
    (fewer : a.numbered.length + 1 < UInt64.size) : ∃ n, n ≤ b.link.stream.through.toNat ∧
      Frame.numbers a.link.stream.retained = List.range' (n + 1) a.link.stream.retained.length ∧
      n + a.link.stream.retained.length = a.numbered.length := by
  have enough := flow.enough
  have whole : a.released + a.link.stream.retained.length = a.numbered.length := Nat.sub_add_cancel coherent.fits
  have numbers := (coherent.consecutive_retained signed).numbers (by omega)
  exact ⟨a.released, flow.released_le (by omega), numbers, whole⟩

/-! ## What becomes of the queue of a sender -/

namespace LinkEnd

/-- How the queue of an end may change, and the messages that it has accepted. -/
inductive Requeues (e e' : LinkEnd) : Prop where
  | still (queued : e'.link.queued = e.link.queued) (same : e'.numbered = e.numbered)
  /-- Everything that is retained is queued again. -/
  | again (queued : e'.link.queued = Frame.numbers e'.link.stream.retained) (same : e'.numbered = e.numbered)
  | closed (closed : e'.link.state = .closed) (queued : e'.link.queued = []) (same : e'.numbered = e.numbered)
  /-- One more message is accepted. -/
  | next (isOpen : e.link.state ≠ .closed)
      (queued : e.link.canTransmit = true → e'.link.queued = e.link.queued ++ [e.numbered.length + 1])
      (more : e'.numbered.length = e.numbered.length + 1)

/-- A message is accepted only by a link that is open. -/
theorem isOpen_of_send {l l' : Link} {m : SyncMessage} {now : SessionTime} {n : UInt64}
    (sent : l.send m now = (l', .ok n)) : l.state ≠ .closed := by
  intro closed
  unfold Link.send at sent
  rw [if_pos closed] at sent
  cases sent

theorem requeues_own {e : LinkEnd} {now : SessionTime} {action : OwnAction} (h : e.Coherent)
    (fewer : e.numbered.length + 1 < UInt64.size) : e.Requeues (e.perform [] now action.toLinkAction) := by
  cases action with
  | send m =>
    dsimp only [OwnAction.toLinkAction, perform]
    rcases e.link.send_cases m now with ⟨fault, sent⟩ | ⟨isLocal, sent⟩ | ⟨isLocal, -, f, written, sent⟩
    · rw [sent]
      exact .still rfl rfl
    · rw [sent]
      refine .still (queued_pushUnsequenced e.link m now) ?_
      simp [numbered, isLocal]
    · rw [sent]
      have seq : f.seq = e.link.nextSeq := (Frame.message_ofMessage written).2.1
      have number : f.seq.toNat = e.numbered.length + 1 := by
        rw [seq, show e.link.nextSeq = UInt64.ofNat (e.numbered.length + 1) from h.next]
        exact UInt64.toNat_ofNat_of_lt' fewer
      refine .next (isOpen_of_send sent) (fun may => ?_) ?_
      · rw [← number]
        refine queued_enqueue may ?_ now
        intro outside
        rw [outside] at number
        exact absurd number (Nat.succ_ne_zero _).symm
      · rw [e.numbered_enqueue f now _ isLocal, List.length_append]
        rfl
  | tick =>
    rcases queued_tick e.link now with same | ⟨closed, none⟩
    · exact .still same rfl
    · exact .closed closed none rfl
  | requeue =>
    rcases queued_requeue e.link now with same | again
    · exact .still same rfl
    · exact .again again rfl
  | close => exact .closed (state_enter e.link .closed now) rfl rfl
  | drainInbound => exact .still rfl rfl

/-- What has been drained once stays drained. -/
theorem drained_perform (e : LinkEnd) (arriving : List Frame) (now : SessionTime) (action : LinkAction) :
    e.drained ⊆ (e.perform arriving now action).drained := by
  intro f mem
  cases action with
  | send m =>
    dsimp only [perform]
    split <;> exact mem
  | drainOutbound => exact List.mem_append_left _ mem
  | deliver place =>
    dsimp only [perform]
    split <;> exact mem
  | tick | connected | disconnected | requeue | close | drainInbound => exact mem

theorem Moves.sent {e e' : LinkEnd} {arriving : List Frame} {action : LinkAction} (h : e.Moves arriving action e') :
    ∃ more, e'.sent = e.sent ++ more := by
  cases h with
  | outside | numbered => exact ⟨_, rfl⟩
  | quiet | drained | fetched | took => exact ⟨[], (List.append_nil _).symm⟩

/-- Messages that have been accepted once stay so. -/
theorem numbered_perform (e : LinkEnd) (arriving : List Frame) (now : SessionTime) (action : LinkAction) :
    e.numbered <+: (e.perform arriving now action).numbered := by
  obtain ⟨rest, more⟩ := (e.moves_perform arriving now action).sent
  rw [numbered, numbered, more, List.filter_append]
  exact List.prefix_append _ _

/-- What an end does on its own leaves its connection alone. -/
theorem bond_own (e : LinkEnd) (now : SessionTime) (action : OwnAction) :
    (e.perform [] now action.toLinkAction).link.bond = e.link.bond := by
  cases action with
  | send m =>
    dsimp only [OwnAction.toLinkAction, perform]
    rcases e.link.send_cases m now with ⟨fault, sent⟩ | ⟨-, sent⟩ | ⟨-, -, f, -, sent⟩
    · rw [sent]
    · rw [sent]
      exact bond_pushUnsequenced e.link m now
    · rw [sent]
      rfl
  | tick => exact bond_tick e.link now
  | requeue => exact bond_requeue e.link now
  | close => exact bond_close e.link now
  | drainInbound => rfl

/-- What an end does by itself brings it nothing. -/
theorem through_perform (e : LinkEnd) (now : SessionTime) (action : LinkAction) :
    (e.perform [] now action).link.stream.through = e.link.stream.through := by
  cases action with
  | send m =>
    dsimp only [perform]
    rcases e.link.send_cases m now with ⟨fault, sent⟩ | ⟨-, sent⟩ | ⟨-, -, f, -, sent⟩
    · rw [sent]
    · rw [sent]
      exact congrArg LinkStream.through (stream_pushUnsequenced e.link m now)
    · rw [sent]
      rfl
  | tick => exact congrArg LinkStream.through (stream_tick e.link now)
  | connected => exact congrArg LinkStream.through (stream_onConnected e.link now)
  | disconnected => exact congrArg LinkStream.through (stream_onDisconnected e.link now)
  | requeue => exact congrArg LinkStream.through (stream_requeue e.link now)
  | close => exact congrArg LinkStream.through (stream_close e.link now)
  | drainOutbound | drainInbound | deliver place => rfl

end LinkEnd

/-! ## What holds on a line -/

namespace LineEnd

/-- The numbers that are on their way late, and those queued behind them. -/
def pending (e : LineEnd) : List Nat := Frame.numbers e.late ++ e.base.link.queued

/-- How far the end has received. -/
def through (e : LineEnd) : Nat := e.base.link.stream.through.toNat

/-- What holds of an end of a line at any time. -/
structure Wired (e : LineEnd) : Prop where
  onWay : ∀ f ∈ e.early ++ e.late, f ∈ e.base.drained
  apart : e.joined = false → e.early = [] ∧ e.late = [] ∧ e.greeted = false
  waits : e.greeted = false → e.late = []
  connected : e.joined = true → e.base.link.state ≠ .closed → e.base.link.bond.connected = true
  talks : e.greeted = true → e.base.link.bond.remote.isSome = true ∧ 1 ≤ e.base.link.state.stage
  judged : ∀ t ∈ e.taken, Verdict.isGap t.verdict = true ↔ t.Premature
  gaps : e.base.link.bond.gaps = e.taken.countP (fun t => Verdict.isGap t.verdict)
  reported : e.base.link.bond.reported = e.taken.countP (fun t => Verdict.isGap t.verdict)

/-- What one end has on its way late comes in its turn for the other one, up to the last message accepted. -/
structure Steady (a b : LineEnd) : Prop where
  gapless : b.base.link.state ≠ .closed → a.greeted = true → Gapless b.through a.pending
  complete : b.base.link.state ≠ .closed → a.base.link.state ≠ .closed → a.greeted = true →
    a.base.numbered.length ≤ reach b.through a.pending

/-- The end names nobody in particular: all its frames are of the session and can be read. -/
abbrev Readable (session : SessionId) (e : LineEnd) : Prop := e.base.Signed session (fun _ => True) (fun _ => True)

/-- The counters and the verdicts tell of the same frames. -/
theorem Wired.continuous_judged {e : LineEnd} (h : e.Wired) : e.Continuous ↔ ∀ t ∈ e.taken, ¬ t.Premature := by
  constructor
  · intro continuous t mem premature
    have gap := (h.judged t mem).mpr premature
    rw [continuous.verdicts t mem] at gap
    cases gap
  · intro patient
    have verdicts : ∀ t ∈ e.taken, ¬ Verdict.isGap t.verdict = true := fun t mem gap =>
      patient t mem ((h.judged t mem).mp gap)
    have none : e.taken.countP (fun t => Verdict.isGap t.verdict) = 0 := List.countP_eq_zero.mpr verdicts
    exact ⟨fun t mem => Bool.eq_false_iff.mpr (verdicts t mem), h.gaps.trans none, h.reported.trans none⟩

theorem Wired.joined_of_greeted {e : LineEnd} (h : e.Wired) (greeted : e.greeted = true) : e.joined = true := by
  cases joined : e.joined with
  | true => rfl
  | false =>
    rw [(h.apart joined).2.2] at greeted
    cases greeted

/-- Once it has taken a hello, a link that is open may send numbered frames. -/
theorem Wired.canTransmit {e : LineEnd} (h : e.Wired) (greeted : e.greeted = true)
    (isOpen : e.base.link.state ≠ .closed) : e.base.link.canTransmit = true :=
  Link.canTransmit_of_stage (h.connected (h.joined_of_greeted greeted) isOpen) (h.talks greeted).1 (h.talks greeted).2
    isOpen

namespace Steady

variable {a a' b b' : LineEnd} {session : SessionId}

/-- What is on its way already comes in its turn, whatever is queued. -/
theorem gapless_late (h : Steady a b) (wired : a.Wired) (isOpen : b.base.link.state ≠ .closed) :
    Gapless b.through (Frame.numbers a.late) := by
  cases greeted : a.greeted with
  | true => exact (gapless_append.mp (h.gapless isOpen greeted)).1
  | false =>
    rw [wired.waits greeted]
    trivial

/-- **The hello repairs the queue**: everything that is retained comes in its turn. -/
theorem of_again (late : b.base.link.state ≠ .closed → Gapless b.through (Frame.numbers a.late))
    (queued : a.base.link.queued = Frame.numbers a.base.link.stream.retained) (coherent : a.base.Coherent)
    (flow : LinkEnd.Flow a.base b.base) (signed : a.Readable session)
    (fewer : a.base.numbered.length + 1 < UInt64.size) : Steady a b := by
  obtain ⟨n, arrived, numbers, whole⟩ := LinkEnd.numbers_retained coherent flow signed fewer
  have pending : a.pending = Frame.numbers a.late ++ List.range' (n + 1) a.base.link.stream.retained.length := by
    rw [LineEnd.pending, queued, numbers]
  have start := Nat.le_trans arrived (le_reach b.through (Frame.numbers a.late))
  constructor
  · intro isOpen _
    rw [pending, gapless_append]
    exact ⟨late isOpen, gapless_range' start⟩
  · intro _ _ _
    rw [pending, reach_append, ← whole]
    exact le_reach_range' start

/-- **The sender**: its queue changes in few ways. -/
theorem requeues (h : Steady a b) (wired : a.Wired) (late : a'.late = a.late) (greeted : a'.greeted = a.greeted)
    (requeues : a.base.Requeues a'.base) (stage : a.base.link.state.stage ≤ a'.base.link.state.stage)
    (coherent : a'.base.Coherent) (flow : LinkEnd.Flow a'.base b.base) (signed : a'.Readable session)
    (fewer : a'.base.numbered.length + 1 < UInt64.size) : Steady a' b := by
  have wasOpen : a'.base.link.state ≠ .closed → a.base.link.state ≠ .closed := by
    intro isOpen
    exact LinkState.isOpen_of_stage stage isOpen
  cases requeues with
  | still queued same =>
    have pending : a'.pending = a.pending := by rw [LineEnd.pending, late, queued, LineEnd.pending]
    constructor
    · intro isOpen met
      rw [pending]
      exact h.gapless isOpen (greeted ▸ met)
    · intro isOpen isOpen' met
      rw [pending, same]
      exact h.complete isOpen (wasOpen isOpen') (greeted ▸ met)
  | again queued same =>
    refine of_again (fun isOpen => ?_) queued coherent flow signed fewer
    rw [late]
    exact h.gapless_late wired isOpen
  | closed closed queued same =>
    constructor
    · intro isOpen met
      rw [LineEnd.pending, queued, List.append_nil, late]
      exact h.gapless_late wired isOpen
    · exact fun _ isOpen' => absurd closed isOpen'
  | next isOpen' queued more =>
    -- The new number is the next one after everything that is pending.
    have pending : a.greeted = true → a'.pending = a.pending ++ [a.base.numbered.length + 1] := by
      intro met
      rw [LineEnd.pending, late, queued (wired.canTransmit met isOpen'), LineEnd.pending, List.append_assoc]
    constructor
    · intro isOpen met
      rw [greeted] at met
      rw [pending met, gapless_append]
      exact ⟨h.gapless isOpen met, Nat.succ_le_succ (h.complete isOpen isOpen' met), trivial⟩
    · intro isOpen _ met
      rw [greeted] at met
      rw [pending met, reach_append, more]
      exact Nat.le_max_right _ _

/-- An end that has not taken a hello has nothing on its way late. -/
theorem of_unmet (unmet : a.greeted = false) : Steady a b := by
  constructor
  · intro _ greeted
    exact absurd (unmet.symm.trans greeted) (by decide)
  · intro _ _ greeted
    exact absurd (unmet.symm.trans greeted) (by decide)

/-- **The receiver** goes on, and nothing changes on the way. -/
theorem advance (h : Steady a b) (base : a'.base = a.base) (greeted : a'.greeted = a.greeted)
    (late : Frame.numbers a'.late = Frame.numbers a.late) (le : b.through ≤ b'.through)
    (stage : b.base.link.state.stage ≤ b'.base.link.state.stage) : Steady a' b' := by
  have wasOpen : b'.base.link.state ≠ .closed → b.base.link.state ≠ .closed := by
    intro isOpen
    exact LinkState.isOpen_of_stage stage isOpen
  have pending : a'.pending = a.pending := by rw [LineEnd.pending, late, base, LineEnd.pending]
  constructor
  · intro isOpen met
    rw [pending]
    exact (h.gapless (wasOpen isOpen) (greeted ▸ met)).mono le
  · intro isOpen isOpen' met
    rw [base] at isOpen' ⊢
    rw [pending]
    exact Nat.le_trans (h.complete (wasOpen isOpen) isOpen' (greeted ▸ met)) (reach_mono le)

/-- The receiver takes the first number that is on its way late. -/
theorem arrive (h : Steady a b) (greeted : a.greeted = true) {n : Nat}
    (late : Frame.numbers a.late = n :: Frame.numbers a'.late) (base : a'.base = a.base)
    (through : b.base.link.state ≠ .closed → n ≤ b.through + 1 → b'.through = max b.through n)
    (stage : b.base.link.state.stage ≤ b'.base.link.state.stage) : Steady a' b' := by
  have wasOpen : b'.base.link.state ≠ .closed → b.base.link.state ≠ .closed := by
    intro isOpen
    exact LinkState.isOpen_of_stage stage isOpen
  have pending : a.pending = n :: a'.pending := by
    rw [LineEnd.pending, late, LineEnd.pending, base]
    rfl
  constructor
  · intro isOpen _
    have turn := h.gapless (wasOpen isOpen) greeted
    rw [pending] at turn
    rw [through (wasOpen isOpen) turn.1]
    exact turn.2
  · intro isOpen isOpen' _
    have turn := h.gapless (wasOpen isOpen) greeted
    rw [base] at isOpen' ⊢
    have all := h.complete (wasOpen isOpen) isOpen' greeted
    rw [pending] at turn all
    rw [through (wasOpen isOpen) turn.1]
    exact all

end Steady

end LineEnd

/-! ## What becomes of a frame -/

namespace Link

variable {l : Link} {f : Frame} {now : SessionTime} {m : SyncMessage}

/-- A numbered frame counts when it is the next one. -/
theorem through_onFrame (now : SessionTime) (session : f.header.session = l.session) (isOpen : l.state ≠ .closed)
    (numbered : f.seq ≠ unsequenced) (carried : f.message = .ok m) : (l.onFrame f now).1.stream.through =
      if f.seq = l.receivedThrough + 1 then f.seq else l.receivedThrough := by
  rw [onFrame_eq session isOpen carried, if_neg numbered, stream_onSequenced]
  have same : (l.heard f.header.ack now).receivedThrough = l.receivedThrough := rfl
  rw [same]
  by_cases next : f.seq = l.receivedThrough + 1
  · rw [if_pos next, if_pos next]
  · rw [if_neg next, if_neg next]
    rfl

/-- As long as the numbers last, the verdict is a gap exactly when the frame is ahead of its place. -/
theorem isGap_onFrame (session : f.header.session = l.session) (carried : f.message = .ok m)
    (fewer : l.receivedThrough.toNat + 1 < UInt64.size) : Verdict.isGap (l.onFrame f now).2 = true ↔
      l.state ≠ .closed ∧ f.seq ≠ unsequenced ∧ l.receivedThrough.toNat + 1 < f.seq.toNat := by
  have next : (l.receivedThrough + 1).toNat = l.receivedThrough.toNat + 1 := by
    rw [UInt64.toNat_add]
    exact Nat.mod_eq_of_lt fewer
  constructor
  · intro gap
    cases l.handles_onFrame f now with
    | aside _ _ inPlace =>
      rw [inPlace] at gap
      cases gap
    | unreadable _ _ carried' =>
      rw [carried] at carried'
      cases carried'
    | greeted _ _ _ _ _ _ verdict =>
      rw [verdict] at gap
      cases gap
    | gap isOpen numbered ahead =>
      obtain ⟨notNext, notBefore⟩ := ahead
      refine ⟨isOpen, numbered, ?_⟩
      rw [Ne, ← UInt64.toNat_inj, next] at notNext
      rw [UInt64.lt_iff_toNat_lt, next] at notBefore
      omega
  · rintro ⟨isOpen, numbered, ahead⟩
    have notNext : f.seq ≠ l.receivedThrough + 1 := by
      intro same
      rw [same, next] at ahead
      exact Nat.lt_irrefl _ ahead
    have notBefore : ¬ f.seq < l.receivedThrough + 1 := by
      rw [UInt64.lt_iff_toNat_lt, next]
      omega
    rw [onFrame_eq session isOpen carried, if_neg numbered,
      onSequenced_ahead (l := l.heard f.header.ack now) notNext notBefore]
    rfl

/-- Taking a frame leaves the connection up or down, and counts a gap if there is one. -/
theorem Handles.counts {after : Link × Except Fault Unit} (h : l.Handles f after) (carried : f.message = .ok m) :
    after.1.bond.connected = l.bond.connected ∧
    after.1.bond.gaps = l.bond.gaps + (if Verdict.isGap after.2 = true then 1 else 0) ∧
    after.1.bond.reported = l.bond.reported + (if Verdict.isGap after.2 = true then 1 else 0) := by
  cases h with
  | aside bond _ inPlace =>
    rw [bond, inPlace]
    exact ⟨rfl, rfl, rfl⟩
  | unreadable _ _ carried' =>
    rw [carried] at carried'
    cases carried'
  | greeted _ _ _ _ bond _ verdict =>
    rw [bond, verdict]
    exact ⟨rfl, rfl, rfl⟩
  | gap _ _ _ bond _ verdict =>
    rw [bond, verdict]
    exact ⟨rfl, rfl, rfl⟩

/-- Who is at the other end is not forgotten. -/
theorem Handles.remote {after : Link × Except Fault Unit} (h : l.Handles f after)
    (known : l.bond.remote.isSome = true) : after.1.bond.remote.isSome = true := by
  cases h with
  | aside bond | unreadable bond => rw [bond, known]
  | greeted _ _ _ _ bond => rw [bond]; rfl
  | gap _ _ _ bond => rw [bond]; exact known

/-- A link that believes a hello knows who is at the other end, and queues everything that it retains. -/
theorem Handles.met (h : l.Handles f (l.onFrame f now)) (met : LineEnd.isMetBy l f now = true) :
    (l.onFrame f now).1.bond.remote.isSome = true ∧ (l.onFrame f now).1.state = .established ∧
      (l.connected = true → (l.onFrame f now).1.queued = Frame.numbers (l.onFrame f now).1.stream.retained) := by
  rw [LineEnd.isMetBy, Bool.and_eq_true, Bool.and_eq_true, Frame.isGreeting_iff] at met
  obtain ⟨⟨⟨outside, participant, resumeFrom, hello⟩, isOpen⟩, accepted⟩ := met
  have isOpen : l.state ≠ .closed := by simpa using isOpen
  cases h with
  | aside _ _ _ unmet =>
    have refused := unmet isOpen outside participant resumeFrom hello
    cases verdict : (l.onFrame f now).2 with
    | ok u => exact absurd verdict refused
    | error fault =>
      rw [verdict] at accepted
      cases accepted
  | unreadable _ _ carried' =>
    rw [hello] at carried'
    cases carried'
  | greeted _ _ _ established bond queued =>
    refine ⟨?_, established, queued⟩
    rw [bond]
    rfl
  | gap _ numbered => exact absurd outside numbered

/-- A link that believes no hello leaves its queue alone. -/
theorem Handles.unmet (h : l.Handles f (l.onFrame f now)) (unmet : LineEnd.isMetBy l f now = false) :
    (l.onFrame f now).1.queued = l.queued := by
  cases h with
  | aside _ queued | unreadable _ queued => exact queued
  | greeted isOpen outside carried _ _ _ verdict =>
    have met : LineEnd.isMetBy l f now = true := by
      rw [LineEnd.isMetBy, Frame.isGreeting_iff.mpr ⟨outside, _, _, carried⟩, verdict]
      simpa [Except.isOk, Except.toBool] using isOpen
    rw [met] at unmet
    cases unmet
  | gap _ _ _ _ queued => exact queued

end Link

namespace LineEnd

variable {a b : LineEnd} {session : SessionId} {f : Frame} {early : Bool} {now : SessionTime}

@[simp] theorem link_take (e : LineEnd) (f : Frame) (early : Bool) (now : SessionTime) :
    (e.take f early now).base.link = (e.base.link.onFrame f now).1 := rfl

theorem stage_take (e : LineEnd) (f : Frame) (early : Bool) (now : SessionTime) :
    e.base.link.state.stage ≤ (e.take f early now).base.link.state.stage := stage_onFrame e.base.link f now

/-- What an end needs of a frame that is on its way to it. -/
structure Takes (e : LineEnd) (f : Frame) : Prop where
  joined : e.joined = true
  session : f.header.session = e.base.link.session
  readable : ∃ m, f.message = .ok m
  fewer : e.through + 1 < UInt64.size

/-- What taking a frame does to the end that takes it. -/
theorem Wired.take (h : b.Wired) (takes : b.Takes f)
    (turn : early = false → b.base.link.state ≠ .closed → f.seq ≠ unsequenced → f.seq.toNat ≤ b.through + 1) :
    (b.take f early now).Wired := by
  obtain ⟨m, carried⟩ := takes.readable
  have stage := b.stage_take f early now
  have judged : Verdict.isGap (b.base.link.onFrame f now).2 = true ↔
      (Taken.mk b.base.link f now early).Premature := by
    rw [isGap_onFrame takes.session carried takes.fewer]
    constructor
    · rintro ⟨isOpen, numbered, ahead⟩
      cases early with
      | true => exact ⟨rfl, isOpen, numbered, ahead⟩
      | false => exact absurd (turn rfl isOpen numbered) (Nat.not_le_of_lt ahead)
    · rintro ⟨-, isOpen, numbered, ahead⟩
      exact ⟨isOpen, numbered, ahead⟩
  have handles := b.base.link.handles_onFrame f now
  obtain ⟨connected, gaps, reported⟩ := handles.counts carried
  refine ⟨h.onWay, ?_, ?_, ?_, ?_, ?_, ?_, ?_⟩
  · intro apart
    exact absurd (takes.joined.symm.trans apart) (by decide)
  · intro unmet
    exact h.waits (Bool.or_eq_false_iff.mp unmet).1
  · intro joined isOpen
    have wasOpen := LinkState.isOpen_of_stage stage isOpen
    exact connected.trans (h.connected joined wasOpen)
  · intro greeted
    rcases Bool.or_eq_true_iff.mp greeted with before | met
    · obtain ⟨remote, talking⟩ := h.talks before
      exact ⟨handles.remote remote, Nat.le_trans talking stage⟩
    · obtain ⟨remote, established, -⟩ := handles.met met
      refine ⟨remote, ?_⟩
      rw [link_take, established]
      exact Nat.le_refl _
  · intro t mem
    rcases List.mem_append.mp mem with old | new
    · exact h.judged t old
    · rw [List.mem_singleton.mp new]
      exact judged
  · refine gaps.trans ?_
    rw [h.gaps, LineEnd.take, List.countP_append, List.countP_singleton]
    rfl
  · refine reported.trans ?_
    rw [h.reported, LineEnd.take, List.countP_append, List.countP_singleton]
    rfl

/-- An end that takes a frame goes on sending as it should. -/
theorem Steady.take (h : Steady b a) (wired : b.Wired) (takes : b.Takes f)
    (coherent : (b.take f early now).base.Coherent) (flow : LinkEnd.Flow (b.take f early now).base a.base)
    (signed : (b.take f early now).Readable session)
    (fewer : (b.take f early now).base.numbered.length + 1 < UInt64.size) : Steady (b.take f early now) a := by
  have handles := b.base.link.handles_onFrame f now
  cases met : isMetBy b.base.link f now with
  | true =>
    have isOpen : b.base.link.state ≠ .closed := by
      rw [isMetBy, Bool.and_eq_true, Bool.and_eq_true] at met
      simpa using met.1.2
    have queued := (handles.met met).2.2 (wired.connected takes.joined isOpen)
    exact Steady.of_again (h.gapless_late wired) queued coherent flow signed fewer
  | false =>
    have greeted : (b.take f early now).greeted = b.greeted := by
      rw [LineEnd.take, met, Bool.or_false]
    exact h.requeues wired rfl greeted (.still (handles.unmet met) rfl) (b.stage_take f early now) coherent flow signed
      fewer

/-- What an end offers is the first of its early frames, or of its late ones when no early one is left. -/
theorem offer_cases {a' : LineEnd} (offers : a.offer = some (f, early, a')) :
    (∃ rest, a.early = f :: rest ∧ early = true ∧ a' = { a with early := rest }) ∨
      ∃ rest, a.early = [] ∧ a.late = f :: rest ∧ early = false ∧ a' = { a with late := rest } := by
  unfold offer at offers
  split at offers
  · rename_i g rest inFront
    cases offers
    exact Or.inl ⟨rest, inFront, rfl, rfl⟩
  · rename_i g rest inFront behind
    cases offers
    exact Or.inr ⟨rest, inFront, behind, rfl, rfl⟩
  · cases offers

/-- What an end offers has been on its way, and the rest still is. -/
theorem Wired.offer {a' : LineEnd} (h : a.Wired) (offers : a.offer = some (f, early, a')) :
    a'.Wired ∧ a'.base = a.base ∧ a'.greeted = a.greeted ∧ f ∈ a.base.drained ∧
      (early = true ∧ a'.late = a.late ∨ early = false ∧ a.late = f :: a'.late) := by
  have onWay := h.onWay
  have apart := h.apart
  have waits := h.waits
  rcases offer_cases offers with ⟨rest, inFront, rfl, rfl⟩ | ⟨rest, inFront, behind, rfl, rfl⟩
  · rw [inFront] at onWay apart
    refine ⟨⟨?_, ?_, waits, h.connected, h.talks, h.judged, h.gaps, h.reported⟩, rfl, rfl, ?_, Or.inl ⟨rfl, rfl⟩⟩
    · intro g mem
      exact onWay g (List.mem_cons_of_mem _ mem)
    · intro alone
      cases (apart alone).1
    · exact onWay f List.mem_cons_self
  · rw [inFront, behind] at onWay apart
    rw [behind] at waits
    refine ⟨⟨?_, ?_, ?_, h.connected, h.talks, h.judged, h.gaps, h.reported⟩, rfl, rfl, ?_, Or.inr ⟨rfl, behind⟩⟩
    · show ∀ g ∈ a.early ++ rest, g ∈ a.base.drained
      rw [inFront]
      exact fun g mem => onWay g (List.mem_cons_of_mem _ mem)
    · intro alone
      cases (apart alone).2.1
    · intro unmet
      cases waits unmet
    · exact onWay f List.mem_cons_self

/-- A frame that is on its way late comes in its turn. -/
theorem Steady.turn {a' : LineEnd} (h : Steady a b) (wired : a.Wired) (offers : a.offer = some (f, early, a')) :
    early = false → b.base.link.state ≠ .closed → f.seq ≠ unsequenced → f.seq.toNat ≤ b.through + 1 := by
  intro late isOpen numbered
  obtain ⟨-, -, -, -, order⟩ := wired.offer offers
  rcases order with ⟨inFront, -⟩ | ⟨-, behind⟩
  · rw [late] at inFront
    cases inFront
  · have turns := h.gapless_late wired isOpen
    rw [behind, Frame.numbers_cons_of_numbered numbered] at turns
    exact turns.1

/-- **A frame goes from one end to the other.** -/
theorem Steady.receive {a' : LineEnd} (h : Steady a b) (wired : a.Wired) (offers : a.offer = some (f, early, a'))
    (takes : b.Takes f) : Steady a' (b.take f early now) := by
  obtain ⟨-, base, greeted, -, order⟩ := wired.offer offers
  obtain ⟨m, carried⟩ := takes.readable
  have stage := b.stage_take f early now
  have received := takes_onFrame b.base.link f now
  have more : b.through ≤ (b.take f early now).through := UInt64.le_iff_toNat_le.mp received.through
  rcases order with ⟨-, late⟩ | ⟨-, late⟩
  · exact h.advance base greeted (congrArg Frame.numbers late) more stage
  · by_cases outside : f.seq = unsequenced
    · refine h.advance base greeted ?_ more stage
      rw [late, Frame.numbers_cons_of_outside outside]
    · have met : a.greeted = true := by
        cases unmet : a.greeted with
        | true => rfl
        | false =>
          rw [wired.waits unmet] at late
          cases late
      refine h.arrive met (by rw [late, Frame.numbers_cons_of_numbered outside]) base (fun isOpen turn => ?_) stage
      -- The number is the next one, or one that has been received before.
      have next : (b.base.link.receivedThrough + 1).toNat = b.through + 1 := by
        rw [UInt64.toNat_add]
        exact Nat.mod_eq_of_lt takes.fewer
      have through := congrArg UInt64.toNat (Link.through_onFrame now takes.session isOpen outside carried)
      refine Eq.trans through ?_
      split
      · rename_i inPlace
        have number := congrArg UInt64.toNat inPlace
        omega
      · rename_i notNext
        rw [← UInt64.toNat_inj, next] at notNext
        have same : b.base.link.receivedThrough.toNat = b.through := rfl
        omega

/-! ## What an end does by itself -/

/-- The link keeps its connection and its gaps, and no state goes back. -/
theorem Wired.own (h : a.Wired) (action : OwnAction) : (a.act now action.toLinkAction).Wired := by
  have bond : (a.act now action.toLinkAction).base.link.bond = a.base.link.bond := a.base.bond_own now action
  have stage : a.base.link.state.stage ≤ (a.act now action.toLinkAction).base.link.state.stage :=
    a.base.stage_perform [] now action.toLinkAction
  refine ⟨?_, h.apart, h.waits, ?_, ?_, h.judged, ?_, ?_⟩
  · intro f mem
    exact a.base.drained_perform [] now action.toLinkAction (h.onWay f mem)
  · intro joined isOpen
    rw [bond]
    exact h.connected joined (LinkState.isOpen_of_stage stage isOpen)
  · intro greeted
    rw [bond]
    exact ⟨(h.talks greeted).1, Nat.le_trans (h.talks greeted).2 stage⟩
  · rw [bond]
    exact h.gaps
  · rw [bond]
    exact h.reported

/-- An end that is told of the loss of its connection has nothing on the way. -/
theorem Wired.disconnected (h : a.Wired) (alone : a.joined = false) : (a.act now .disconnected).Wired := by
  have bond := bond_onDisconnected a.base.link now
  obtain ⟨-, -, unmet⟩ := h.apart alone
  refine ⟨h.onWay, h.apart, h.waits, ?_, ?_, h.judged, ?_, ?_⟩
  · intro joined
    exact absurd (alone.symm.trans joined) (by decide)
  · intro greeted
    exact absurd (unmet.symm.trans greeted) (by decide)
  · exact (congrArg LinkBond.gaps bond).trans h.gaps
  · exact (congrArg LinkBond.reported bond).trans h.reported

/-- An end that is told of a new connection has put nothing on it. -/
theorem Wired.joins (h : a.Wired) (alone : a.joined = false) :
    ({ a.act now .connected with joined := true } : LineEnd).Wired := by
  obtain ⟨-, -, unmet⟩ := h.apart alone
  have state : (a.base.link.onConnected now).state = a.base.link.state := state_onConnected a.base.link now
  have counts : (a.base.link.onConnected now).bond.gaps = a.base.link.bond.gaps ∧
      (a.base.link.onConnected now).bond.reported = a.base.link.bond.reported := by
    by_cases closed : a.base.link.state = .closed
    · have still : a.base.link.onConnected now = a.base.link := if_pos closed
      rw [still]
      exact ⟨rfl, rfl⟩
    · rw [bond_onConnected closed]
      exact ⟨rfl, rfl⟩
  refine ⟨h.onWay, ?_, h.waits, ?_, ?_, h.judged, counts.1.trans h.gaps, counts.2.trans h.reported⟩
  · intro apart
    cases apart
  · intro _ isOpen
    have isOpen : a.base.link.state ≠ .closed := state ▸ isOpen
    exact congrArg LinkBond.connected (bond_onConnected isOpen now)
  · intro greeted
    exact absurd (unmet.symm.trans greeted) (by decide)

/-- What is drained is lost, or put on the connection late or early. -/
theorem transmit_cases (e : LineEnd) (now : SessionTime) :
    (e.joined = false ∧ e.transmit now = e.act now .drainOutbound) ∨
    (e.joined = true ∧ e.greeted = true ∧ e.transmit now =
      { e.act now .drainOutbound with late := e.late ++ e.base.link.drainOutbound.1 }) ∨
    (e.joined = true ∧ e.greeted = false ∧ e.transmit now =
      { e.act now .drainOutbound with early := e.early ++ e.base.link.drainOutbound.1 }) := by
  unfold transmit act
  cases joined : e.joined with
  | false =>
    exact Or.inl ⟨rfl, if_pos rfl⟩
  | true =>
    cases greeted : e.greeted with
    | true =>
      exact Or.inr (Or.inl ⟨rfl, rfl, (if_neg Bool.false_ne_true).trans (if_pos rfl)⟩)
    | false =>
      exact Or.inr (Or.inr ⟨rfl, rfl, (if_neg Bool.false_ne_true).trans (if_neg Bool.false_ne_true)⟩)

theorem base_transmit (e : LineEnd) (now : SessionTime) :
    (e.transmit now).base = e.base.perform [] now .drainOutbound := by
  rcases e.transmit_cases now with ⟨-, sent⟩ | ⟨-, -, sent⟩ | ⟨-, -, sent⟩ <;> rw [sent] <;> rfl

/-- What is drained is put behind what is on the way. -/
theorem Wired.transmit (h : a.Wired) : (a.transmit now).Wired := by
  have before : ∀ f ∈ a.early ++ a.late, f ∈ a.base.drained ++ a.base.link.drainOutbound.1 := by
    intro f mem
    exact List.mem_append_left _ (h.onWay f mem)
  rcases a.transmit_cases now with ⟨-, sent⟩ | ⟨joined, greeted, sent⟩ | ⟨joined, greeted, sent⟩
  · rw [sent]
    exact ⟨before, h.apart, h.waits, h.connected, h.talks, h.judged, h.gaps, h.reported⟩
  · rw [sent]
    refine ⟨?_, ?_, ?_, h.connected, h.talks, h.judged, h.gaps, h.reported⟩
    · intro f mem
      have mem : f ∈ a.early ++ (a.late ++ a.base.link.drainOutbound.1) := mem
      rw [← List.append_assoc] at mem
      exact (List.mem_append.mp mem).elim (before f) (List.mem_append_right _)
    · intro apart
      exact absurd (joined.symm.trans apart) (by decide)
    · intro unmet
      exact absurd (greeted.symm.trans unmet) (by decide)
  · rw [sent]
    refine ⟨?_, ?_, h.waits, h.connected, h.talks, h.judged, h.gaps, h.reported⟩
    · intro f mem
      have mem : f ∈ a.early ++ a.base.link.drainOutbound.1 ++ a.late := mem
      rw [h.waits greeted, List.append_nil] at mem before
      exact (List.mem_append.mp mem).elim (before f) (List.mem_append_right _)
    · intro apart
      exact absurd (joined.symm.trans apart) (by decide)

/-- Putting the queue on the connection leaves what is pending. -/
theorem Steady.transmit (h : Steady a b) (wired : a.Wired) : Steady (a.transmit now) b := by
  rcases a.transmit_cases now with ⟨alone, sent⟩ | ⟨joined, greeted, sent⟩ | ⟨joined, greeted, sent⟩
  · rw [sent]
    exact of_unmet (wired.apart alone).2.2
  · rw [sent]
    have drained : Frame.numbers a.base.link.drainOutbound.1 = a.base.link.queued :=
      Frame.numbers_map_restamped a.base.link.receivedThrough _ a.base.link.outbox.toList
    have pending : ({ a.act now .drainOutbound with late := a.late ++ a.base.link.drainOutbound.1 } : LineEnd).pending =
        a.pending := by
      have none : (a.act now .drainOutbound).base.link.queued = [] := rfl
      rw [pending, none, List.append_nil, Frame.numbers_append, drained, LineEnd.pending]
    constructor
    · intro isOpen _
      rw [pending]
      exact h.gapless isOpen greeted
    · intro isOpen isOpen' _
      rw [pending]
      exact h.complete isOpen isOpen' greeted
  · rw [sent]
    exact of_unmet greeted

/-- What an end does by itself brings it nothing. -/
theorem through_act (e : LineEnd) (now : SessionTime) (action : LinkAction) :
    (e.act now action).through = e.through := congrArg UInt64.toNat (e.base.through_perform now action)

end LineEnd

/-! ## Whole runs -/

/-- The links of a line. -/
def Line.bases (x : Ends LineEnd) : Ends LinkEnd := ⟨x.host.base, x.guest.base⟩

/-- What holds of a line at any time. -/
structure Line.Safe (session : SessionId) (x : Ends LineEnd) : Prop where
  sound : Exchange.Sound (Line.bases x)
  readable : ∀ side, (x.get side).Readable session
  wired : ∀ side, (x.get side).Wired
  steady : ∀ side, LineEnd.Steady (x.get side) (x.get side.other)

namespace Line

variable {session : SessionId} {x : Ends LineEnd} {side : Role} {e : LineEnd} {now : SessionTime}

@[simp] theorem get_bases (x : Ends LineEnd) (side : Role) : (bases x).get side = (x.get side).base := by
  cases side <;> rfl

@[simp] theorem bases_set (x : Ends LineEnd) (side : Role) (e : LineEnd) :
    bases (x.set side e) = (bases x).set side e.base := by
  cases side <;> rfl

/-- Both ends after a change of both. -/
theorem get_set_both (x : Ends LineEnd) (side : Role) (e sender : LineEnd) :
    ((x.set side e).set side.other sender).get side = e ∧
      ((x.set side e).set side.other sender).get side.other = sender := by
  cases side <;> exact ⟨rfl, rfl⟩

/-- What becomes of the link of an end by a move, seen from both ends. -/
structure Moved (session : SessionId) (x : Ends LineEnd) (side : Role) (e : LineEnd) : Prop where
  sound : Exchange.Sound (bases (x.set side e))
  readable : e.Readable session
  coherent : e.base.Coherent
  flow : LinkEnd.Flow e.base (x.get side.other).base

theorem Safe.moved (h : Safe session x) {arriving : List Frame} {action : LinkAction}
    (base : e.base = (x.get side).base.perform arriving now action)
    (arrives : ∀ f ∈ arriving, f ∈ (x.get side.other).base.drained)
    (honest : ∀ participant resumeFrom, action = .send (.hello participant resumeFrom) →
      resumeFrom ≤ (x.get side).base.link.receivedThrough) : Moved session x side e := by
  have genuine : ∀ f ∈ arriving, ((bases x).get side.other).Genuine f := by
    intro f mem
    refine (h.sound.coherent side.other).drained f ?_
    rw [get_bases]
    exact arrives f mem
  have sound : Exchange.Sound ((bases x).set side (((bases x).get side).perform arriving now action)) := by
    refine h.sound.perform genuine ?_
    rw [get_bases]
    exact honest
  rw [get_bases, ← base, ← bases_set] at sound
  have readable : e.Readable session := by
    rw [LineEnd.Readable, base]
    exact (h.readable side).move (fun _ _ _ => trivial) (fun _ _ => trivial)
      ((x.get side).base.moves_perform arriving now action)
  have coherent := sound.coherent side
  have flow := sound.flow side
  rw [get_bases, get_bases, Ends.get_set_self, Ends.get_set_other] at flow
  rw [get_bases, Ends.get_set_self] at coherent
  exact ⟨sound, readable, coherent, flow⟩

/-- A line stays safe when one end moves on its own. -/
theorem Safe.set (h : Safe session x) (moved : Moved session x side e) (wired : e.Wired)
    (sends : LineEnd.Steady e (x.get side.other)) (receives : LineEnd.Steady (x.get side.other) e) :
    Safe session (x.set side e) := by
  refine ⟨moved.sound, Role.forall_of side ?_ ?_, Role.forall_of side ?_ ?_, Role.forall_of side ?_ ?_⟩
  · rw [Ends.get_set_self]
    exact moved.readable
  · rw [Ends.get_set_other]
    exact h.readable _
  · rw [Ends.get_set_self]
    exact wired
  · rw [Ends.get_set_other]
    exact h.wired _
  · rw [Ends.get_set_self, Ends.get_set_other]
    exact sends
  · rw [Role.other_other, Ends.get_set_self, Ends.get_set_other]
    exact receives

/-- The numbers of both ends last. -/
def Few (x : Ends LineEnd) : Prop := ∀ side, (x.get side).base.numbered.length + 1 < UInt64.size

theorem Few.of_set (few : Few (x.set side e)) (more : (x.get side).base.numbered.length ≤ e.base.numbered.length) :
    Few x := by
  refine Role.forall_of side ?_ ?_
  · have here := few side
    rw [Ends.get_set_self] at here
    exact Nat.lt_of_le_of_lt (Nat.succ_le_succ more) here
  · have there := few side.other
    rwa [Ends.get_set_other] at there

/-- **An end does something on its own.** -/
theorem Safe.own (h : Safe session x) (action : OwnAction)
    (honest : ∀ participant resumeFrom, action = .send (.hello participant resumeFrom) →
      resumeFrom ≤ (x.get side).base.link.receivedThrough)
    (few : ((x.get side).act now action.toLinkAction).base.numbered.length + 1 < UInt64.size) :
    Safe session (x.set side ((x.get side).act now action.toLinkAction)) := by
  have moved : Moved session x side ((x.get side).act now action.toLinkAction) := by
    refine h.moved rfl (fun f mem => absurd mem List.not_mem_nil) (fun participant resumeFrom same => ?_)
    cases action with
    | send m =>
      cases same
      exact honest participant resumeFrom rfl
    | tick | requeue | close | drainInbound => cases same
  have stage := (x.get side).base.stage_perform [] now action.toLinkAction
  have before := ((x.get side).base.numbered_perform [] now action.toLinkAction).length_le
  have coherent : (x.get side).base.Coherent := by
    have coherent := h.sound.coherent side
    rwa [get_bases] at coherent
  have back := h.steady side.other
  rw [Role.other_other] at back
  refine h.set moved ((h.wired side).own action) ?_ ?_
  · refine (h.steady side).requeues (h.wired side) rfl rfl (LinkEnd.requeues_own coherent ?_) stage moved.coherent
      moved.flow moved.readable few
    exact Nat.lt_of_le_of_lt (Nat.succ_le_succ before) few
  · exact back.advance rfl rfl rfl (Nat.le_of_eq (LineEnd.through_act _ _ _).symm) stage

/-- **An end puts its queue on the connection.** -/
theorem Safe.transmit (h : Safe session x) : Safe session (x.set side ((x.get side).transmit now)) := by
  have base := (x.get side).base_transmit now
  have moved : Moved session x side ((x.get side).transmit now) := by
    refine h.moved base (fun f mem => absurd mem List.not_mem_nil) (fun participant resumeFrom same => ?_)
    cases same
  have back := h.steady side.other
  rw [Role.other_other] at back
  refine h.set moved (h.wired side).transmit ((h.steady side).transmit (h.wired side)) ?_
  refine back.advance rfl rfl rfl ?_ ?_
  · rw [LineEnd.through, LineEnd.through, base]
    exact Nat.le_refl _
  · rw [base]
    exact Nat.le_refl _

/-- **An end is told of its connection**, and has not taken a hello on it. -/
theorem Safe.told (h : Safe session x) {action : LinkAction}
    (base : e.base = (x.get side).base.perform [] now action) (unmet : e.greeted = false)
    (told : ∀ m, action ≠ .send m) (wired : e.Wired) : Safe session (x.set side e) := by
  have moved : Moved session x side e := by
    refine h.moved base (fun f mem => absurd mem List.not_mem_nil) (fun participant resumeFrom same => ?_)
    exact absurd same (told _)
  have back := h.steady side.other
  rw [Role.other_other] at back
  have through : (x.get side).through ≤ e.through := by
    rw [LineEnd.through, LineEnd.through, base]
    exact Nat.le_of_eq (LineEnd.through_act _ now action).symm
  refine h.set moved wired (.of_unmet unmet) (back.advance rfl rfl rfl through ?_)
  rw [base]
  exact (x.get side).base.stage_perform [] now action

/-- **The connection drops.** -/
theorem Safe.drop (h : Safe session x) : Safe session ⟨x.host.cut, x.guest.cut⟩ := by
  have wired : ∀ {e : LineEnd}, e.Wired → e.cut.Wired := by
    intro e wired
    refine ⟨fun f mem => absurd mem List.not_mem_nil, fun _ => ⟨rfl, rfl, rfl⟩, fun _ => rfl, ?_, ?_, wired.judged,
      wired.gaps, wired.reported⟩
    · intro joined
      cases joined
    · intro greeted
      cases greeted
  refine ⟨h.sound, ?_, ?_, ?_⟩
  · intro side
    cases side
    · exact h.readable .host
    · exact h.readable .guest
  · intro side
    cases side
    · exact wired (h.wired .host)
    · exact wired (h.wired .guest)
  · intro side
    cases side
    · exact .of_unmet rfl
    · exact .of_unmet rfl

/-- **An end takes the next frame.** -/
theorem Safe.receive (h : Safe session x) (joined : (x.get side).joined = true) {f : Frame} {early : Bool}
    {sender : LineEnd} (offers : (x.get side.other).offer = some (f, early, sender))
    (few : Few ((x.set side ((x.get side).take f early now)).set side.other sender)) :
    Safe session ((x.set side ((x.get side).take f early now)).set side.other sender) := by
  obtain ⟨wired', base', greeted', drained, -⟩ := (h.wired side.other).offer offers
  obtain ⟨here, there⟩ := get_set_both x side ((x.get side).take f early now) sender
  have fewHere := few side
  have fewThere := few side.other
  rw [here] at fewHere
  rw [there, base'] at fewThere
  have moved : Moved session x side ((x.get side).take f early now) := by
    have base : ((x.get side).take f early now).base = (x.get side).base.perform [f] now (.deliver 0) := rfl
    refine h.moved base (fun g mem => ?_) (fun participant resumeFrom same => ?_)
    · rw [List.mem_singleton.mp mem]
      exact drained
    · cases same
  have back := h.steady side.other
  rw [Role.other_other] at back
  have flow := h.sound.flow side.other
  rw [Role.other_other, get_bases, get_bases] at flow
  have signed := (h.readable side.other).drained f drained
  have takes : (x.get side).Takes f :=
    ⟨joined, signed.session.trans (h.readable side).joined.symm, signed.readable,
      Nat.lt_of_le_of_lt (Nat.succ_le_succ flow.enough) fewThere⟩
  have bases : bases ((x.set side ((x.get side).take f early now)).set side.other sender) =
      bases (x.set side ((x.get side).take f early now)) := by
    rw [bases_set, base', ← get_bases, bases_set]
    cases side <;> rfl
  refine ⟨bases ▸ moved.sound, Role.forall_of side ?_ ?_, Role.forall_of side ?_ ?_, Role.forall_of side ?_ ?_⟩
  · rw [here]
    exact moved.readable
  · rw [there, LineEnd.Readable, base']
    exact h.readable side.other
  · rw [here]
    exact (h.wired side).take takes (back.turn (h.wired side.other) offers)
  · rw [there]
    exact wired'
  · rw [here, there]
    refine ((h.steady side).take (h.wired side) takes moved.coherent moved.flow moved.readable fewHere).advance rfl rfl
      rfl ?_ ?_
    · rw [LineEnd.through, LineEnd.through, base']
    · rw [base']
  · rw [Role.other_other, here, there]
    exact back.receive (h.wired side.other) offers takes

end Line

namespace LineMove

variable {session : SessionId} {x : Ends LineEnd} {move : LineMove}

/-- What a move can come to. -/
inductive Becomes (x : Ends LineEnd) : LineMove → Ends LineEnd → Prop
  /-- It is not possible. -/
  | idle (move : LineMove) : Becomes x move x
  | own (side : Role) (now : SessionTime) (action : OwnAction) :
      Becomes x ⟨side, now, .own action⟩ (x.set side ((x.get side).act now action.toLinkAction))
  | drop (side : Role) (now : SessionTime) : Becomes x ⟨side, now, .drop⟩ ⟨x.host.cut, x.guest.cut⟩
  | disconnected (side : Role) (now : SessionTime) (alone : (x.get side).joined = false) :
      Becomes x ⟨side, now, .disconnected⟩ (x.set side ((x.get side).act now .disconnected))
  | connected (side : Role) (now : SessionTime) (alone : (x.get side).joined = false) :
      Becomes x ⟨side, now, .connected⟩ (x.set side { (x.get side).act now .connected with joined := true })
  | transmit (side : Role) (now : SessionTime) :
      Becomes x ⟨side, now, .transmit⟩ (x.set side ((x.get side).transmit now))
  | receive (side : Role) (now : SessionTime) (joined : (x.get side).joined = true) {f : Frame} {early : Bool}
      {sender : LineEnd} (offers : (x.get side.other).offer = some (f, early, sender)) :
      Becomes x ⟨side, now, .receive⟩ ((x.set side ((x.get side).take f early now)).set side.other sender)

/-- The guards of the moves are read here and nowhere else. -/
theorem becomes_act (x : Ends LineEnd) (move : LineMove) : move.Becomes x (act x move) := by
  obtain ⟨side, now, action⟩ := move
  cases action with
  | own action => exact .own side now action
  | drop => exact .drop side now
  | disconnected =>
    unfold act
    dsimp only
    split
    · exact .idle _
    · exact .disconnected side now (Bool.eq_false_iff.mpr ‹_›)
  | connected =>
    unfold act
    dsimp only
    split
    · exact .idle _
    · exact .connected side now (Bool.eq_false_iff.mpr ‹_›)
  | transmit => exact .transmit side now
  | receive =>
    unfold act
    dsimp only
    split
    · split
      · exact .receive side now ‹_› ‹_›
      · exact .idle _
    · exact .idle _

/-- No move takes a message back. -/
theorem few_of_act (few : Line.Few (act x move)) : Line.Few x := by
  have becomes := becomes_act x move
  generalize act x move = x' at becomes few
  cases becomes with
  | idle => exact few
  | own side now action => exact few.of_set ((x.get side).base.numbered_perform [] now _).length_le
  | drop =>
    intro side
    cases side
    · exact few .host
    · exact few .guest
  | disconnected side now | connected side now =>
    exact few.of_set ((x.get side).base.numbered_perform [] now _).length_le
  | transmit side now =>
    refine few.of_set (Nat.le_of_eq ?_)
    rw [(x.get side).base_transmit now]
    rfl
  | @receive side now _ f early sender offers =>
    have base : sender.base = (x.get side.other).base := by
      rcases LineEnd.offer_cases offers with ⟨_, -, -, rfl⟩ | ⟨_, -, -, -, rfl⟩ <;> rfl
    refine Role.forall_of side ?_ ?_
    · have here := few side
      rw [(Line.get_set_both x side _ sender).1] at here
      exact here
    · have there := few side.other
      rw [(Line.get_set_both x side _ sender).2, base] at there
      exact there

/-- **One step.** -/
theorem safe_act (h : Line.Safe session x) (honest : move.Honest x) (few : Line.Few (act x move)) :
    Line.Safe session (act x move) := by
  have becomes := becomes_act x move
  generalize act x move = x' at becomes few ⊢
  cases becomes with
  | idle => exact h
  | own side now action =>
    have here := few side
    rw [Ends.get_set_self] at here
    refine h.own action (fun participant resumeFrom same => ?_) here
    exact honest participant resumeFrom (congrArg LineAction.own same)
  | drop => exact h.drop
  | disconnected side now alone =>
    have told : ∀ m, LinkAction.disconnected ≠ .send m := fun m same => by cases same
    exact h.told rfl ((h.wired side).apart alone).2.2 told ((h.wired side).disconnected alone)
  | connected side now alone =>
    have told : ∀ m, LinkAction.connected ≠ .send m := fun m same => by cases same
    exact h.told rfl ((h.wired side).apart alone).2.2 told ((h.wired side).joins alone)
  | transmit => exact h.transmit
  | receive side now joined offers => exact h.receive joined offers few

/-- **A whole run.** -/
theorem safe_run {moves : List LineMove} (h : Line.Safe session x) (honest : HonestRun x moves)
    (few : Line.Few (run x moves)) : Line.Safe session (run x moves) := by
  have fewBefore : ∀ {moves : List LineMove} {x : Ends LineEnd}, Line.Few (run x moves) → Line.Few x := by
    intro moves
    induction moves with
    | nil => exact id
    | cons move rest ih => exact fun few => few_of_act (ih few)
  induction moves generalizing x with
  | nil => exact h
  | cons move rest ih => exact ih (safe_act h honest.1 (fewBefore few)) honest.2 few

end LineMove

theorem Line.safe_fresh {session : SessionId} {config : Ends LinkConfig} {localId : Ends ParticipantId}
    (room : ∀ side, (config.get side).outboundCapacity < UInt64.size) :
    Line.Safe session (Line.fresh session config localId) := by
  have wired : ∀ config own, (LineEnd.fresh config session own).Wired := by
    intro config own
    refine ⟨fun f mem => absurd mem List.not_mem_nil, fun _ => ⟨rfl, rfl, rfl⟩, fun _ => rfl, ?_, ?_, ?_, rfl, rfl⟩
    · intro joined
      cases joined
    · intro greeted
      cases greeted
    · exact fun t mem => absurd mem List.not_mem_nil
  refine ⟨Exchange.sound_fresh room, ?_, ?_, ?_⟩
  · intro side
    cases side <;> exact LinkEnd.signed_fresh session _ trivial
  · intro side
    cases side <;> exact wired _ _
  · intro side
    cases side <;> exact .of_unmet rfl

/-- **Frames come in their turn**, and the gaps stay at zero, exactly as long as no frame is taken that was sent before
its sender had taken the hello of the other end and that is ahead of its place. -/
theorem Line.continuous_iff {session : SessionId} {config : Ends LinkConfig} {localId : Ends ParticipantId}
    {moves : List LineMove} (room : ∀ side, (config.get side).outboundCapacity < UInt64.size)
    (honest : LineMove.HonestRun (Line.fresh session config localId) moves)
    (few : Line.Few (LineMove.run (Line.fresh session config localId) moves)) (side : Role) :
    ((LineMove.run (Line.fresh session config localId) moves).get side).Continuous ↔
      ∀ t ∈ ((LineMove.run (Line.fresh session config localId) moves).get side).taken, ¬ t.Premature :=
  ((LineMove.safe_run (Line.safe_fresh room) honest few).wired side).continuous_judged

/-- The two ends of the examples, before anything happens. -/
def newLine : Ends LineEnd := Line.fresh ⟨1⟩ ⟨.standard, .standard⟩ ⟨⟨1⟩, ⟨2⟩⟩

/-- Both ends meet, the connection drops, the host sends a message, and both are told of a new connection. -/
def meeting : List LineMove :=
  [⟨.host, ⟨0⟩, .connected⟩, ⟨.guest, ⟨0⟩, .connected⟩, ⟨.host, ⟨0⟩, .transmit⟩, ⟨.guest, ⟨0⟩, .transmit⟩,
    ⟨.host, ⟨1⟩, .receive⟩, ⟨.guest, ⟨1⟩, .receive⟩, ⟨.host, ⟨2⟩, .drop⟩, ⟨.host, ⟨2⟩, .disconnected⟩,
    ⟨.guest, ⟨2⟩, .disconnected⟩, ⟨.host, ⟨3⟩, .own (.send (.pause ⟨3⟩))⟩, ⟨.host, ⟨4⟩, .connected⟩,
    ⟨.guest, ⟨4⟩, .connected⟩]

/-- The host waits for the hello of the guest before it sends another message. -/
def calmSession : List LineMove :=
  meeting ++ [⟨.guest, ⟨4⟩, .transmit⟩, ⟨.host, ⟨5⟩, .receive⟩, ⟨.host, ⟨5⟩, .own (.send (.resume ⟨5⟩))⟩,
    ⟨.host, ⟨5⟩, .transmit⟩, ⟨.guest, ⟨6⟩, .receive⟩, ⟨.guest, ⟨6⟩, .receive⟩, ⟨.guest, ⟨6⟩, .receive⟩]

theorem Line.continuous_iff_calmSession :
    ((LineMove.run newLine calmSession).get .guest).base.delivered = [.pause ⟨3⟩, .resume ⟨5⟩] ∧
      ((LineMove.run newLine calmSession).get .guest).Continuous := by
  refine ⟨by decide, (Line.continuous_iff ?_ ?_ ?_ .guest).mpr ?_⟩
  · intro side
    cases side <;> decide
  · simp [calmSession, meeting, LineMove.HonestRun, LineMove.Honest]
  · intro side
    cases side <;> decide
  · have outside : ∀ t ∈ ((LineMove.run newLine calmSession).get .guest).taken,
        t.early = true → t.frame.seq = unsequenced := by decide
    intro t mem premature
    exact premature.numbered (outside t mem premature.early)

/-- The host sends another message as soon as it is told of the new connection. -/
def hastySession : List LineMove :=
  meeting ++ [⟨.host, ⟨4⟩, .own (.send (.resume ⟨4⟩))⟩, ⟨.host, ⟨4⟩, .transmit⟩, ⟨.guest, ⟨5⟩, .receive⟩,
    ⟨.guest, ⟨5⟩, .receive⟩]

/-- A link that knows its peer from an earlier connection does not wait for the hello: the second message comes before
the first one, which waits for it. -/
theorem Line.not_continuous_hastySession : ¬ ((LineMove.run newLine hastySession).get .guest).Continuous := by
  intro continuous
  have gaps := continuous.gaps
  revert gaps
  decide

/-! ## Runs in which the hello comes first -/

namespace LineMove

/-- No numbered frame is put on a connection before a hello has been taken on it. -/
def Patient (x : Ends LineEnd) (move : LineMove) : Prop :=
  move.action = .transmit → (x.get move.side).joined = true → (x.get move.side).greeted = false →
    ∀ f ∈ (x.get move.side).base.link.outbox.toList, f.seq = unsequenced

/-- In the whole run no numbered frame is put on a connection before a hello has been taken on it. -/
def PatientRun (x : Ends LineEnd) : List LineMove → Prop
  | [] => True
  | move :: rest => move.Patient x ∧ PatientRun (act x move) rest

end LineMove

/-- Everything that an end has sent early, or taken and that was sent early, is outside the sequence. -/
structure LineEnd.Mannered (e : LineEnd) : Prop where
  early : ∀ f ∈ e.early, f.seq = unsequenced
  taken : ∀ t ∈ e.taken, t.early = true → t.frame.seq = unsequenced

namespace LineEnd

variable {a b : LineEnd} {f : Frame} {early : Bool} {now : SessionTime}

theorem Mannered.transmit (h : a.Mannered)
    (patient : a.joined = true → a.greeted = false → ∀ f ∈ a.base.link.outbox.toList, f.seq = unsequenced) :
    (a.transmit now).Mannered := by
  rcases a.transmit_cases now with ⟨-, sent⟩ | ⟨-, -, sent⟩ | ⟨joined, unmet, sent⟩
  · rw [sent]
    exact ⟨h.early, h.taken⟩
  · rw [sent]
    exact ⟨h.early, h.taken⟩
  · rw [sent]
    refine ⟨fun f mem => ?_, h.taken⟩
    rcases List.mem_append.mp mem with old | new
    · exact h.early f old
    · obtain ⟨g, queued, rfl⟩ := List.mem_map.mp new
      exact patient joined unmet g queued

/-- A frame goes from one end to the other, and only an early one is in front of the early ones. -/
theorem Mannered.receive {a' : LineEnd} (now : SessionTime) (ha : a.Mannered) (hb : b.Mannered)
    (offers : a.offer = some (f, early, a')) : a'.Mannered ∧ (b.take f early now).Mannered := by
  have outside : a'.Mannered ∧ (early = true → f.seq = unsequenced) := by
    have first := ha.early
    rcases offer_cases offers with ⟨rest, inFront, rfl, rfl⟩ | ⟨rest, inFront, behind, rfl, rfl⟩
    · rw [inFront] at first
      exact ⟨⟨fun g mem => first g (List.mem_cons_of_mem _ mem), ha.taken⟩, fun _ => first f List.mem_cons_self⟩
    · exact ⟨⟨first, ha.taken⟩, fun never => by cases never⟩
  refine ⟨outside.1, hb.early, fun t mem wasEarly => ?_⟩
  rcases List.mem_append.mp mem with old | new
  · exact hb.taken t old wasEarly
  · rw [List.mem_singleton.mp new] at wasEarly ⊢
    exact outside.2 wasEarly

end LineEnd

namespace LineMove

variable {x : Ends LineEnd} {move : LineMove}

/-- **One step.** -/
theorem mannered_act (h : ∀ side, (x.get side).Mannered) (patient : move.Patient x) :
    ∀ side, ((act x move).get side).Mannered := by
  have set : ∀ {side : Role} {e : LineEnd}, e.Mannered → ∀ s, ((x.set side e).get s).Mannered := by
    intro side e mannered
    refine Role.forall_of side ?_ ?_
    · rw [Ends.get_set_self]
      exact mannered
    · rw [Ends.get_set_other]
      exact h side.other
  have becomes := becomes_act x move
  generalize act x move = x' at becomes ⊢
  cases becomes with
  | idle => exact h
  | own side | disconnected side | connected side => exact set ⟨(h side).early, (h side).taken⟩
  | drop =>
    intro s
    cases s
    · exact ⟨fun f mem => absurd mem List.not_mem_nil, (h .host).taken⟩
    · exact ⟨fun f mem => absurd mem List.not_mem_nil, (h .guest).taken⟩
  | transmit side => exact set ((h side).transmit (patient rfl))
  | @receive side now _ f early sender offers =>
    obtain ⟨there, here⟩ := (h side.other).receive now (h side) offers
    have get := Line.get_set_both x side ((x.get side).take f early now) sender
    refine Role.forall_of side ?_ ?_
    · rw [get.1]
      exact here
    · rw [get.2]
      exact there

/-- **A whole run.** -/
theorem mannered_run {moves : List LineMove} (h : ∀ side, (x.get side).Mannered) (patient : PatientRun x moves) :
    ∀ side, ((run x moves).get side).Mannered := by
  induction moves generalizing x with
  | nil => exact h
  | cons move rest ih => exact ih (mannered_act h patient.1) patient.2

end LineMove

/-- When the hello of the other end always comes first, no frame is ever found to be missing. -/
theorem Line.continuous_of_patient {session : SessionId} {config : Ends LinkConfig} {localId : Ends ParticipantId}
    {moves : List LineMove} (room : ∀ side, (config.get side).outboundCapacity < UInt64.size)
    (honest : LineMove.HonestRun (Line.fresh session config localId) moves)
    (few : Line.Few (LineMove.run (Line.fresh session config localId) moves))
    (patient : LineMove.PatientRun (Line.fresh session config localId) moves) (side : Role) :
    ((LineMove.run (Line.fresh session config localId) moves).get side).Continuous := by
  have fresh : ∀ s, ((Line.fresh session config localId).get s).Mannered := by
    intro s
    cases s <;> exact ⟨fun f mem => absurd mem List.not_mem_nil, fun t mem => absurd mem List.not_mem_nil⟩
  have mannered := LineMove.mannered_run fresh patient side
  refine ((LineMove.safe_run (Line.safe_fresh room) honest few).wired side).continuous_judged.mpr ?_
  intro t mem premature
  exact premature.numbered (mannered.taken t mem premature.early)

end Tandem
