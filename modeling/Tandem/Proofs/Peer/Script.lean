import Tandem.Proofs.Peer.Runs
/-!
# What an input sees of the script

Both peers run the same script, each when its own clock comes to it.  An input stamped `t` comes out alike on
both of them only if, where it is applied, the commands due at or before `t` have been run: `Peer.SeesScript`.

For forwarded input the peer takes care of that: a message waits as long as it would be early.  For its own input
it does not.  Own input is applied before the commands of the step are run, so a step that carries the clock over
the due time of a command applies the input without it, and stamps it later than the command.  Dispatch that is
held back to spare the link has the same effect, for longer.

`Peer.seesScript_iff` says exactly when an input sees the script: always if it is forwarded, and otherwise as long
as no command that was pending before the step has come due by the stamp.
-/

namespace Tandem

namespace Peer

/-- No command that is due at or before the time of a stamp is pending. -/
def SeesScript (p : Peer) (s : Stamp) : Prop := ∀ c ∈ p.queue.pending, ¬ c.due ≤ s.time

/-- A peer applies an input in a step: `p` is the peer when the session time has been reached, `q` the peer when
it turns to the input, and `s` the stamp of the input. -/
inductive Applies (p : Peer) : (isLocal : Bool) → (q : Peer) → (s : Stamp) → Prop where
  /-- A forwarded input of the first stage, after `n` other messages. -/
  | early (n : Nat) {e : InputEvent} {s : Stamp} {rest : List SyncMessage}
      (next : (releaseUpTo n p.received).held = .forward e s :: rest)
      (ready : (releaseUpTo n p.received).mustWait (.forward e s) = false) :
      Applies p false (releaseUpTo n p.received) s
  /-- An own input, after `n` others. -/
  | own (n : Nat) {payload : InputPayload} (running : p.heard.phase = .running)
      (next : p.heard.pendingInputs.toList[n]? = some payload) :
      Applies p true (p.appliedOwn n) ((p.appliedOwn n).reconciler.clock.issue p.heard.now).1
  /-- A forwarded input that has waited for the script, after `n` other messages. -/
  | late (n : Nat) {e : InputEvent} {s : Stamp} {rest : List SyncMessage}
      (next : (releaseUpTo n p.dispatched).held = .forward e s :: rest)
      (ready : (releaseUpTo n p.dispatched).mustWait (.forward e s) = false) :
      Applies p false (releaseUpTo n p.dispatched) s

/-- A forwarded input that need not wait sees the script: the next command is the one that is due first. -/
theorem seesScript_of_ready {p : Peer} {e : InputEvent} {s : Stamp} (inOrder : p.InOrder)
    (running : p.phase = .running) (ready : p.mustWait (.forward e s) = false) : p.SeesScript s := by
  intro c mem due
  cases pending : p.queue.pending with
  | nil =>
    rw [pending] at mem
    exact List.not_mem_nil mem
  | cons first rest =>
    have notDue : ¬ first.due ≤ s.time := by
      simp only [mustWait, running, SyncMessage.writeTime?, CommandQueue.nextDue?, pending, List.head?_cons,
        Option.map_some, decide_true, Bool.true_and, Bool.or_eq_false_iff, decide_eq_false_iff_not] at ready
      exact ready.2
    rw [InOrder, pending] at inOrder
    rw [pending] at mem
    rcases List.mem_cons.mp mem with rfl | later
    · exact notDue due
    · have before := SessionTime.ofSeconds_mono ((List.pairwise_cons.mp inOrder).1 c later)
      exact notDue (UInt64.le_trans before due)

theorem keeps_appliedOwn (p : Peer) (n : Nat) : p.Keeps (p.appliedOwn n) :=
  (keeps_heard p).trans (.trans (.of_eq rfl rfl) (.foldl (fun q payload => keeps_applyInput q payload _) _ _))

/-- What one step does to the commands an input sees. -/
theorem seesScript_of_applies {p q : Peer} {isLocal : Bool} {s : Stamp} (inOrder : p.InOrder)
    (applies : p.Applies isLocal q s) (running : q.phase = .running) :
    q.SeesScript s ↔ (isLocal = true → ∀ c ∈ p.queue.pending, s.time < c.due) := by
  cases applies with
  | early n next ready =>
    have kept : p.Keeps (releaseUpTo n p.received) := .trans (.of_eq rfl rfl) (keeps_releaseUpTo n p.received)
    have sees := seesScript_of_ready (kept.shortens.inOrder inOrder) running ready
    exact iff_of_true sees (fun own => absurd own Bool.false_ne_true)
  | late n next ready =>
    have shorter := (shortens_dispatched p).trans (keeps_releaseUpTo n p.dispatched).shortens
    have sees := seesScript_of_ready (shorter.inOrder inOrder) running ready
    exact iff_of_true sees (fun own => absurd own Bool.false_ne_true)
  | own n =>
    -- Nothing has left the queue since the step began.
    rw [SeesScript, (keeps_appliedOwn p n).queue_eq running rfl]
    refine ⟨fun sees _ c mem => UInt64.not_le.mp (sees c mem), fun later c mem => ?_⟩
    exact UInt64.not_le.mpr (later rfl c mem)

/-- **When an input sees the script.**  In any run, a forwarded input that is applied while the session is running
sees every command due by its stamp.  An own input does exactly if none of the commands that were pending
before the step is due by its stamp. -/
theorem seesScript_iff {config : PeerConfig} {commands : List ScenarioCommand} {actions : List PeerAction}
    {dt : Duration} {p : Peer} (reached : p = (Peer.new config commands).performAll actions) {isLocal : Bool}
    {q : Peer} {s : Stamp} (applies : (p.advanced dt).Applies isLocal q s) (running : q.phase = .running) :
    q.SeesScript s ↔ (isLocal = true → ∀ c ∈ p.queue.pending, s.time < c.due) := by
  have inOrder : p.InOrder := reached ▸ inOrder_performAll config commands actions
  have moved : (p.advanced dt).InOrder := inOrder
  have sees := seesScript_of_applies moved applies running
  exact sees

/-- The script of the examples: the tracking task is started, after a second its cursor is set, and in the end the
session is over. -/
def cursorScript : List ScenarioCommand :=
  [⟨0, 0, .act (.task .tracking) .start, 1, 0⟩, ⟨1, 0, .set (.task .tracking) "cursor" "0.5,0.5", 2, 1⟩,
    ⟨30, 0, .act .session .finish, 3, 2⟩]

/-- The hello of the other peer. -/
def helloFrame : Frame :=
  ⟨⟨wireVersion, .sessionControl, .none, ⟨1⟩, ⟨2⟩, 0, 0, 17⟩, 0 :: 2 :: List.replicate 15 0⟩

/-- The session starts, the first command is run, and the participant moves the cursor. -/
def cursorRun : List PeerAction :=
  [.transport (.connected 1 (.v4 [10, 0, 0, 2] 7400)), .transport (.frame 1 helloFrame), .step (.ofMillis 0),
    .submit (.trackingMove .zero .zero)]

theorem new_cursorScript : Peer.new .standard cursorScript =
    { Peer.new .standard [] with queue := ⟨cursorScript, 0, false⟩ } :=
  Peer.new_of_sorted _ (by decide)

/-- The peer of the examples, when a duration has passed after the run. -/
def cursorPeer (dt : Duration) : Peer := ((Peer.new .standard cursorScript).performAll cursorRun).advanced dt

/-- Half a second later nothing is due, and the input sees the script. -/
theorem seesScript_cursorPeer :
    ∃ q s, (cursorPeer (.ofMillis 500)).Applies true q s ∧ q.phase = .running ∧ q.SeesScript s := by
  have facts : (cursorPeer (.ofMillis 500)).heard.phase = .running ∧
      (cursorPeer (.ofMillis 500)).heard.pendingInputs.toList[0]? = some (.trackingMove .zero .zero) := by
    rw [cursorPeer, new_cursorScript]
    decide +kernel
  have applies := Applies.own 0 facts.1 facts.2
  refine ⟨_, _, applies, facts.1, (seesScript_iff rfl applies facts.1).mpr fun _ => ?_⟩
  rw [cursorPeer, new_cursorScript]
  decide +kernel

/-- A step of a second and a half carries the clock over the due time of the second command, and the input of that
step does not see it. -/
theorem not_seesScript_cursorPeer : ¬ ∀ config commands actions dt isLocal q s,
    (((Peer.new config commands).performAll actions).advanced dt).Applies isLocal q s → q.phase = .running →
      q.SeesScript s := by
  intro claim
  have facts : (cursorPeer (.ofMillis 1500)).heard.phase = .running ∧
      (cursorPeer (.ofMillis 1500)).heard.pendingInputs.toList[0]? = some (.trackingMove .zero .zero) ∧
      ∃ c ∈ ((cursorPeer (.ofMillis 1500)).appliedOwn 0).queue.pending,
        c.due ≤ (((cursorPeer (.ofMillis 1500)).appliedOwn 0).reconciler.clock.issue
          (cursorPeer (.ofMillis 1500)).heard.now).1.time := by
    rw [cursorPeer, new_cursorScript]
    decide +kernel
  obtain ⟨running, next, c, pending, due⟩ := facts
  exact claim _ _ _ _ _ _ _ (Applies.own 0 running next) running c pending due

end Peer

end Tandem
