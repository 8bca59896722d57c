import Tandem.Proofs.Peer.Conversation
import Tandem.Proofs.Peer.PhaseClock
import Tandem.Proofs.Scenario.Dispatch
/-!
# What a peer holds

A message that the link delivers waits in its inbox until a step fetches it, and is then held until neither the clock
nor the script of the peer is behind its writes.  There is one line for all of it: what has been reconciled, what is
held and what is in the inbox are together what the link has delivered (`Peer.Passes`).  Only the end of the session
takes messages out of the line without reconciling them.

What is held after a step is early.  The step has run the commands that were due, so if the first message still waits
for the script, it waits for a command of a later second (`Peer.late_of_mustWait`).
-/

namespace Tandem

namespace SyncMessage

end SyncMessage

/-! ## What a link delivers -/

/-- The messages that a link delivers when a frame arrives: that of the frame if it is the next one. -/
def Link.delivers (l : Link) (f : Frame) : List SyncMessage :=
  if f.header.session = l.session ∧ l.state ≠ .closed ∧ f.seq ≠ unsequenced ∧ f.seq = l.receivedThrough + 1 then
    f.message.toOption.toList
  else []

theorem Link.inbox_onFrame (l : Link) (f : Frame) (now : SessionTime) :
    (l.onFrame f now).1.inbox.toList = l.inbox.toList ++ l.delivers f := by
  have takes := l.takes_onFrame f now
  unfold delivers
  split
  · rename_i next
    obtain ⟨session, isOpen, numbered, inPlace⟩ := next
    cases carried : f.message with
    | ok m =>
      have stream := stream_onSequenced (l.heard f.header.ack now) f.seq m now
      rw [onFrame_eq session isOpen carried, if_neg numbered]
      exact congrArg LinkStream.inbox (stream.trans (if_pos inPlace))
    | error fault =>
      rcases takes.received with ⟨-, same⟩ | ⟨m, -, read, -⟩
      · exact same.trans (List.append_nil _).symm
      · rw [carried] at read
        cases read
  · rename_i notNext
    rw [List.append_nil]
    by_cases closed : l.state = .closed
    · unfold onFrame
      rw [if_pos closed]
      split <;> rfl
    · have same : ∀ s, l.stream.Takes f s → s.inbox = l.stream.inbox := by
        intro s takes
        cases takes with
        | next session numbered _ inPlace => exact absurd ⟨session, closed, numbered, inPlace⟩ notNext
        | ignored | acknowledged | resumed => rfl
      exact same _ takes

namespace Peer

/-- The messages that the link delivers in an action. -/
def delivers (p : Peer) : PeerAction → List SyncMessage
  | .transport (.frame epoch f) => if p.epoch = some epoch then p.link.delivers f else []
  | _ => []

/-- The messages that have been delivered and are still to be reconciled. -/
def waiting (p : Peer) : List SyncMessage := p.held ++ p.link.inbox.toList

/-- Messages have come to the end of the line, and messages have gone from its front to be reconciled.  Nothing else
has left the line, unless the session is over. -/
structure Passes (p : Peer) (came went : List SyncMessage) (q : Peer) : Prop where
  order : (went ++ q.waiting).Sublist (p.waiting ++ came)
  none : q.isFinished = false → p.waiting ++ came = went ++ q.waiting
  finished : p.isFinished = true → q.isFinished = true

namespace Passes

variable {p q r : Peer} {came came' went went' : List SyncMessage}

theorem trans (first : p.Passes came went q) (second : q.Passes came' went' r) :
    p.Passes (came ++ came') (went ++ went') r where
  order := by
    have earlier : (went ++ (q.waiting ++ came')).Sublist (p.waiting ++ (came ++ came')) := by
      rw [← List.append_assoc, ← List.append_assoc]
      exact first.order.append_right came'
    rw [List.append_assoc]
    exact (second.order.append_left went).trans earlier
  none on := by
    have before : q.isFinished = false := Bool.eq_false_iff.mpr fun isOver => by
      rw [second.finished isOver] at on
      cases on
    rw [← List.append_assoc, first.none before, List.append_assoc, second.none on, List.append_assoc]
  finished := second.finished ∘ first.finished

/-- Nothing but the end of the session has changed what is held. -/
theorem of_held (inbox : q.link.inbox.toList = p.link.inbox.toList ++ came) (held : q.held <:+ p.held)
    (still : q.isFinished = true ∨ q.held = p.held) (stays : p.isFinished = true → q.isFinished = true) :
    p.Passes came [] q where
  order := by
    rw [waiting, waiting, inbox, List.append_assoc]
    exact held.sublist.append_right _
  none on := by
    rcases still with isOver | same
    · rw [on] at isOver
      cases isOver
    · rw [waiting, waiting, inbox, same, List.append_assoc]
      rfl
  finished := stays

end Passes

/-- A change of what does not matter for the course of the session. -/
theorem Passes.of_course {p q : Peer} (same : q.course = p.course) : p.Passes [] [] q := by
  simp only [course, Course.mk.injEq] at same
  obtain ⟨-, stream, -, held, phase⟩ := same
  have inbox : q.link.inbox.toList = p.link.inbox.toList := congrArg LinkStream.inbox stream
  refine .of_held (inbox.trans (List.append_nil _).symm) (held ▸ List.suffix_refl _) (Or.inr held) fun isOver => ?_
  rwa [isFinished, phase]

theorem Passes.refl (p : Peer) : p.Passes [] [] p := .of_course rfl

variable {p q : Peer}

theorem GoesOn.passes {told : List SyncMessage} (h : p.GoesOn q told)
    (stays : p.isFinished = true → q.isFinished = true) : p.Passes [] [] q :=
  .of_held (h.accepts.inbox.trans (List.append_nil _).symm) h.held (h.still.imp_right And.left) stays

theorem Turned.passes {m : SyncMessage} {told : List SyncMessage} (h : p.Turned q m told)
    (stays : p.isFinished = true → q.isFinished = true) : p.Passes [] [] q :=
  .of_held (h.accepts.inbox.trans (List.append_nil _).symm) (h.held ▸ List.suffix_refl _) (Or.inr h.held) stays

/-! ## Messages that are reconciled -/

/-- The messages that are reconciled when up to `limit` held messages are released. -/
def releasedUpTo : (limit : Nat) → Peer → List SyncMessage
  | 0, _ => []
  | limit + 1, p =>
    match p.held with
    | [] => []
    | m :: rest => if p.mustWait m then [] else m :: releasedUpTo limit ({ p with held := rest }.reconcile m)

/-- The messages that are reconciled when held messages are released as far as none has to wait. -/
def released (p : Peer) : List SyncMessage := releasedUpTo p.held.length p

theorem passes_reconcile {m : SyncMessage} {rest : List SyncMessage} (first : p.held = m :: rest) :
    p.Passes [] [m] ({ p with held := rest }.reconcile m) := by
  have line : p.waiting ++ [] = [m] ++ ({ p with held := rest } : Peer).waiting := by
    rw [List.append_nil, waiting, first]
    rfl
  have taken : p.Passes [] [m] { p with held := rest } := ⟨line ▸ List.Sublist.refl _, fun _ => line, id⟩
  obtain ⟨told, shorter, outcome⟩ := follows_reconcile { p with held := rest } m
  have heeded : ({ p with held := rest } : Peer).Passes [] [] ({ p with held := rest }.reconcile m) :=
    .of_held (told.accepts.inbox.trans (List.append_nil _).symm) shorter (outcome.imp_right And.left)
      (keeps_reconcile _ m).finished
  exact taken.trans heeded

theorem passes_releaseUpTo (limit : Nat) (p : Peer) : p.Passes [] (releasedUpTo limit p) (releaseUpTo limit p) := by
  induction limit generalizing p with
  | zero => exact .refl p
  | succ limit ih =>
    unfold releasedUpTo releaseUpTo
    cases held : p.held with
    | nil => exact .refl p
    | cons m rest =>
      dsimp only
      split
      · exact .refl p
      · exact (passes_reconcile held).trans (ih _)

theorem passes_releaseHeld (p : Peer) : p.Passes [] p.released p.releaseHeld := passes_releaseUpTo _ p

/-! ## The other stages -/

theorem passes_runCommand (p : Peer) (c : ScenarioCommand) (now : SessionTime) :
    p.Passes [] [] (p.runCommand c now) := by
  have stays := (p.keeps_runCommand c now).finished
  obtain ⟨told, goes | ⟨m, -, turned⟩⟩ := p.turn_runCommand c now
  · exact goes.passes stays
  · exact turned.passes stays

theorem passes_runCommands (commands : List ScenarioCommand) (p : Peer) (now : SessionTime) :
    p.Passes [] [] (p.runCommands now commands) := by
  induction commands generalizing p with
  | nil => exact .refl p
  | cons c rest ih =>
    unfold runCommands
    dsimp only
    split
    · exact p.passes_runCommand c now
    · exact (p.passes_runCommand c now).trans (ih _)

theorem passes_dispatchScenario (p : Peer) (now : SessionTime) : p.Passes [] [] (p.dispatchScenario now) := by
  unfold dispatchScenario
  split
  · exact .refl p
  · split
    · exact .of_course rfl
    · have handedOut : p.Passes [] [] { p with queue := (p.queue.advance now.wholeSeconds).2 } :=
        .of_course rfl
      exact handedOut.trans (passes_runCommands _ _ now)

/-- How the session goes on when the script has been run and the messages that waited for it have been reconciled. -/
theorem goesOn_close (p : Peer) (now : SessionTime) :
    p.GoesOn (((p.expireRounds now).runLinkTimers now).flushLog now) [] ∧
      p.Keeps (((p.expireRounds now).runLinkTimers now).flushLog now) := by
  have ticked := keeps_runLinkTimers (p.expireRounds now) now
  have flushed := keeps_flushLog ((p.expireRounds now).runLinkTimers now) now
  have timed := (p.goesOn_expireRounds now).trans ((p.expireRounds now).goesOn_runLinkTimers now) ticked.finished
  exact ⟨timed.trans (.of_eq rfl) flushed.finished, ((p.keeps_expireRounds now).trans ticked).trans flushed⟩

/-! ## Steps and runs -/

/-- The messages that are reconciled in an action. -/
def reconciles (p : Peer) : PeerAction → List SyncMessage
  | .step dt => (p.advanced dt).received.released ++ (p.advanced dt).dispatched.released
  | _ => []

theorem passes_heard (p : Peer) : p.received.Passes [] p.received.released p.heard := by
  unfold heard
  exact passes_releaseHeld p.received

theorem passes_dispatched (p : Peer) : p.heard.Passes [] [] p.dispatched := by
  obtain ⟨told, own, -⟩ := p.heard.goesOn_applyLocalInputs p.heard.now
  unfold dispatched
  exact (own.passes (keeps_applyLocalInputs _ _).finished).trans (passes_dispatchScenario _ _)

theorem passes_run (p : Peer) : p.received.Passes [] (p.received.released ++ p.dispatched.released) p.run := by
  obtain ⟨goes, ends⟩ := p.dispatched.releaseHeld.goesOn_close p.heard.now
  have later := (passes_dispatched p).trans ((passes_releaseHeld p.dispatched).trans (goes.passes ends.finished))
  simp only [List.append_nil, List.nil_append] at later
  rw [run_eq]
  exact (passes_heard p).trans later

theorem inbox_noted (p : Peer) (action : PeerAction) :
    (p.noted action).link.inbox.toList = p.link.inbox.toList ++ p.delivers action := by
  have nothing : p.link.inbox.toList = p.link.inbox.toList ++ [] := (List.append_nil _).symm
  cases action with
  | transport e =>
    cases e with
    | frame epoch f =>
      dsimp only [noted, delivers]
      split
      · rw [link_took, Link.inbox_onFrame]
      · exact nothing
    | connected | disconnected => exact nothing
  | step | submit | pause | resume | terminate | escape | pollTransmit | requeueOutbound | drainNotifications =>
    exact nothing

/-- **What an action does** to the messages that are waiting. -/
theorem passes_perform (p : Peer) (action : PeerAction) :
    p.Passes (p.delivers action) (p.reconciles action) (p.perform action) := by
  rcases action.step_cases with ⟨dt, rfl⟩ | notStep
  · have fetched : p.Passes [] [] (p.advanced dt).received := by
      have same : (p.advanced dt).received.waiting = p.waiting := List.append_nil _
      refine ⟨?_, fun _ => ?_, id⟩
      all_goals rw [same, List.append_nil]
      · exact List.Sublist.refl _
      · rfl
    rw [perform_step]
    exact fetched.trans (p.advanced dt).passes_run
  · obtain ⟨-, -, held, phase⟩ := (p.hears_noted action).same
    have finished : (p.noted action).isFinished = p.isFinished := congrArg PeerPhase.isFinished phase
    have taken : p.Passes (p.delivers action) [] (p.noted action) :=
      .of_held (p.inbox_noted action) (held ▸ List.suffix_refl _) (Or.inr held) finished.trans
    have stays : (p.noted action).isFinished = true → (p.perform action).isFinished = true := fun isOver =>
      (p.keeps_perform notStep).finished (finished.symm.trans isOver)
    have goes : (p.noted action).Passes [] [] (p.perform action) := by
      obtain ⟨told, goes | ⟨m, turned, -⟩⟩ := p.turn_noted notStep
      · exact goes.passes stays
      · exact turned.passes stays
    have nothing : p.reconciles action = [] := by
      cases action with
      | step dt => exact absurd rfl (notStep dt)
      | submit | pause | resume | terminate | escape | transport | pollTransmit | requeueOutbound
        | drainNotifications => rfl
    have passes := taken.trans goes
    rw [nothing]
    rwa [List.append_nil] at passes

/-- The messages that the link delivers in a run. -/
def deliveredIn : Peer → List PeerAction → List SyncMessage
  | _, [] => []
  | p, action :: rest => p.delivers action ++ (p.perform action).deliveredIn rest

/-- The dispatch of a running session whose link does not ask to be spared. -/
theorem dispatchScenario_spared (running : p.phase = .running) (spared : p.link.isBackpressured = false)
    (now : SessionTime) : p.dispatchScenario now = { p with queue := (p.queue.advance now.wholeSeconds).2 }.runCommands
      now (p.queue.advance now.wholeSeconds).1 := by
  unfold dispatchScenario
  rw [if_neg (not_not_intro running), spared, if_neg Bool.false_ne_true]

/-- The peer when its own inputs have been applied and the script is to be run. -/
def attended (p : Peer) : Peer := p.heard.applyLocalInputs p.heard.now

/-- Whether a step that finds the session running holds the script back, to spare the link. -/
def withholds (p : Peer) : Bool := p.attended.link.isBackpressured

/-- What is pending in a run is of the script. -/
theorem Shortens.countable {config : PeerConfig} {commands : List ScenarioCommand}
    (h : (Peer.new config commands).Shortens p) (countable : ∀ c ∈ commands, c.dueSecond < UInt32.size) :
    ∀ c ∈ p.queue.pending, c.dueSecond < UInt32.size :=
  fun c mem => countable c ((List.mergeSort_perm commands _).subset (h.subset mem))

end Peer

end Tandem
