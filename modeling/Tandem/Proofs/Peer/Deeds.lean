import Tandem.Proofs.Peer.Speech
/-!
# A step, one deed at a time

When a peer has fetched what has come, the rest of its step is a list of *deeds*: a message is reconciled, the inputs
of the participant are applied, the commands that are due are handed out, one of them is run, and so on.
`Peer.stages` lists the peers that a step goes through, each with its cause, and `Peer.path_stages` says that each of
them comes from the one before it by a deed.  What holds throughout a step is then a matter of one deed
(`Path.preserves`).

Commands that have been handed out are run one by one.  So a `Moment` has the commands that are still to be run beside
the peer, and `Moment.ahead` is what may still be run at all.
-/

namespace Tandem

/-- Why something happens to a peer. -/
inductive Cause where
  /-- A message of the other peer is reconciled. -/
  | message
  /-- A command of the scenario is run. -/
  | command
  /-- Anything else. -/
  | other
deriving DecidableEq

/-- A peer within a step, and the commands that have been handed out and are still to be run. -/
structure Moment where
  peer : Peer
  due : List ScenarioCommand

/-- The commands that are still to be run. -/
def Moment.ahead (a : Moment) : List ScenarioCommand := a.due ++ a.peer.queue.pending

/-! ## Deeds -/

/-- One thing that a peer does in a step. -/
inductive Deed : Cause → Moment → Moment → Prop where
  | heeds {p : Peer} {m : SyncMessage} {rest : List SyncMessage} (first : p.held = m :: rest)
      (ready : p.mustWait m = false) : Deed .message ⟨p, []⟩ ⟨{ p with held := rest }.reconcile m, []⟩
  | attends (p : Peer) (now : SessionTime) : Deed .other ⟨p, []⟩ ⟨p.applyLocalInputs now, []⟩
  /-- The link asks to be spared. -/
  | withholds (p : Peer) : Deed .other ⟨p, []⟩
      ⟨p.count (fun s => { s with dispatchWithheld := s.dispatchWithheld + 1 }), []⟩
  | handsOut (p : Peer) (now : SessionTime) (running : p.phase = .running) : Deed .other ⟨p, []⟩
      ⟨{ p with queue := (p.queue.advance now.wholeSeconds).2 }, (p.queue.advance now.wholeSeconds).1⟩
  /-- When the session is over, the commands that have been handed out are forgotten. -/
  | runs (p : Peer) (c : ScenarioCommand) (rest : List ScenarioCommand) (now : SessionTime)
      (on : p.isFinished = false) : Deed .command ⟨p, c :: rest⟩
      ⟨p.runCommand c now, if (p.runCommand c now).isFinished then [] else rest⟩
  | expires (p : Peer) (now : SessionTime) : Deed .other ⟨p, []⟩ ⟨p.expireRounds now, []⟩
  | ticks (p : Peer) (now : SessionTime) : Deed .other ⟨p, []⟩ ⟨p.runLinkTimers now, []⟩
  | flushes (p : Peer) (now : SessionTime) : Deed .other ⟨p, []⟩ ⟨p.flushLog now, []⟩

/-- Deeds lead from one moment to another, through peers that are listed with the causes. -/
inductive Path : Moment → List (Cause × Peer) → Moment → Prop where
  | nil (a : Moment) : Path a [] a
  | cons {cause : Cause} {a b c : Moment} {l : List (Cause × Peer)} (deed : Deed cause a b) (rest : Path b l c) :
      Path a ((cause, b.peer) :: l) c

namespace Path

variable {a b c : Moment} {l l' : List (Cause × Peer)}

theorem single {cause : Cause} (deed : Deed cause a b) : Path a [(cause, b.peer)] b := .cons deed (.nil b)

theorem append (first : Path a l b) (second : Path b l' c) : Path a (l ++ l') c := by
  induction first with
  | nil => exact second
  | cons deed _ ih => exact .cons deed (ih second)

/-- **What each deed preserves** is preserved along a path. -/
theorem preserves {R : Moment → Moment → Prop} (refl : ∀ a, R a a) (trans : ∀ {a b c}, R a b → R b c → R a c)
    (each : ∀ {cause a b}, Deed cause a b → R a b) (h : Path a l b) : R a b := by
  induction h with
  | nil a => exact refl a
  | cons deed _ ih => exact trans (each deed) ih

/-- A fact that each deed keeps is kept along a path. -/
theorem keeps {P : Moment → Prop} (each : ∀ {cause a b}, Deed cause a b → P a → P b) (h : Path a l b)
    (before : P a) : P b :=
  h.preserves (R := fun a b => P a → P b) (fun _ => id) (fun first second => second ∘ first) each before

end Path

/-! ## The peers that a step goes through -/

namespace Peer

/-- The peers after each of up to `limit` held messages that are reconciled. -/
def releases : (limit : Nat) → Peer → List (Cause × Peer)
  | 0, _ => []
  | limit + 1, p =>
    match p.held with
    | [] => []
    | m :: rest =>
      if p.mustWait m then []
      else
        let q := { p with held := rest }.reconcile m
        (.message, q) :: releases limit q

/-- The peers after each of the commands that are run. -/
def commandRuns (now : SessionTime) : List ScenarioCommand → Peer → List (Cause × Peer)
  | [], _ => []
  | c :: rest, p =>
    let q := p.runCommand c now
    (.command, q) :: if q.isFinished then [] else commandRuns now rest q

/-- The peers that the dispatch of the scenario goes through. -/
def dispatches (p : Peer) (now : SessionTime) : List (Cause × Peer) :=
  if p.phase ≠ .running then []
  else if p.link.isBackpressured then [(.other, p.dispatchScenario now)]
  else
    let q := { p with queue := (p.queue.advance now.wholeSeconds).2 }
    (.other, q) :: commandRuns now (p.queue.advance now.wholeSeconds).1 q

/-- The peers that a step goes through after its first stage. -/
def laterStages (p : Peer) : List (Cause × Peer) :=
  let attended := p.heard.applyLocalInputs p.heard.now
  let expired := p.dispatched.releaseHeld.expireRounds p.heard.now
  (.other, attended) :: attended.dispatches p.heard.now ++ (releases p.dispatched.held.length p.dispatched ++
    [(.other, expired), (.other, expired.runLinkTimers p.heard.now),
      (.other, (expired.runLinkTimers p.heard.now).flushLog p.heard.now)])

/-- The peers that a step goes through when the messages have been fetched. -/
def stages (p : Peer) : List (Cause × Peer) := releases p.received.held.length p.received ++ p.laterStages

theorem path_releases (limit : Nat) (p : Peer) : Path ⟨p, []⟩ (releases limit p) ⟨releaseUpTo limit p, []⟩ := by
  induction limit generalizing p with
  | zero => exact .nil _
  | succ limit ih =>
    unfold releases releaseUpTo
    cases held : p.held with
    | nil => exact .nil _
    | cons m rest =>
      dsimp only
      by_cases wait : p.mustWait m = true
      · rw [if_pos wait, if_pos wait]
        exact .nil _
      · rw [if_neg wait, if_neg wait]
        exact .cons (.heeds held (Bool.eq_false_iff.mpr wait)) (ih _)

theorem path_commandRuns (now : SessionTime) (commands : List ScenarioCommand) {p : Peer} (on : p.isFinished = false) :
    Path ⟨p, commands⟩ (commandRuns now commands p) ⟨p.runCommands now commands, []⟩ := by
  induction commands generalizing p with
  | nil => exact .nil _
  | cons c rest ih =>
    have deed := Deed.runs p c rest now on
    unfold commandRuns runCommands
    dsimp only
    cases ended : (p.runCommand c now).isFinished with
    | true =>
      rw [ended] at deed
      exact .single deed
    | false =>
      rw [ended] at deed
      exact .cons deed (ih ended)

theorem path_dispatches (p : Peer) (now : SessionTime) :
    Path ⟨p, []⟩ (p.dispatches now) ⟨p.dispatchScenario now, []⟩ := by
  unfold dispatches dispatchScenario
  by_cases running : p.phase = .running
  · rw [if_neg (not_not_intro running), if_neg (not_not_intro running)]
    cases p.link.isBackpressured with
    | true => exact .single (.withholds p)
    | false =>
      -- Handing out the commands leaves the session running, so the first of them is run.
      refine .cons (.handsOut p now running) (path_commandRuns now _ ?_)
      rw [isFinished, running]
      rfl
  · rw [if_pos running, if_pos running]
    exact .nil _

/-- The first stage of a step. -/
theorem path_heard (p : Peer) :
    Path ⟨p.received, []⟩ (releases p.received.held.length p.received) ⟨p.heard, []⟩ := path_releases _ _

/-- The other stages of a step. -/
theorem path_laterStages (p : Peer) : Path ⟨p.heard, []⟩ p.laterStages ⟨p.run, []⟩ := by
  have dispatched : Path ⟨p.heard, []⟩ _ ⟨p.dispatched, []⟩ :=
    .cons (.attends p.heard p.heard.now) (path_dispatches _ _)
  have released : Path ⟨p.dispatched, []⟩ _ ⟨p.dispatched.releaseHeld, []⟩ := path_releases p.dispatched.held.length _
  have judged : ∀ (q : Peer) (now : SessionTime), Path ⟨q, []⟩ [(.other, q.expireRounds now),
      (.other, (q.expireRounds now).runLinkTimers now), (.other, ((q.expireRounds now).runLinkTimers now).flushLog now)]
      ⟨((q.expireRounds now).runLinkTimers now).flushLog now, []⟩ :=
    fun q now => .cons (.expires q now) (.cons (.ticks _ now) (.single (.flushes _ now)))
  rw [run_eq]
  exact dispatched.append (released.append (judged p.dispatched.releaseHeld p.heard.now))

/-- **A step is a list of deeds** when the messages have been fetched. -/
theorem path_stages (p : Peer) : Path ⟨p.received, []⟩ p.stages ⟨p.run, []⟩ := p.path_heard.append p.path_laterStages

/-- A fact that each deed keeps is kept in a step. -/
theorem step_keeps {P : Moment → Prop} (each : ∀ {cause a b}, Deed cause a b → P a → P b) {p : Peer} {dt : Duration}
    (before : P ⟨(p.advanced dt).received, []⟩) : P ⟨p.perform (.step dt), []⟩ := by
  rw [perform_step]
  exact (path_stages (p.advanced dt)).keeps each before

/-- A frame of the current connection goes to the link, and then the session may start. -/
theorem perform_frame (p : Peer) (epoch : UInt64) (f : Frame) : p.perform (.transport (.frame epoch f)) =
    if p.epoch = some epoch then (p.took f).maybeStart p.now
    else p.count (fun s => { s with staleFrames := s.staleFrames + 1 }) :=
  rfl

end Peer

/-! ## The commands ahead, and the end -/

namespace Deed

variable {cause : Cause} {a b : Moment}

/-- Commands are handed out, or the queue is kept; commands are only due while the peer runs them. -/
theorem keeps (h : Deed cause a b) : (a.peer.Keeps b.peer ∧ (cause = .command ∨ (a.due = [] ∧ b.due = []))) ∨
    (b.ahead = a.ahead ∧ b.peer.phase = .running ∧ a.peer.phase = .running) := by
  cases h with
  | @heeds p m rest first ready =>
    have taken : p.Keeps { p with held := rest } := .of_eq rfl rfl
    exact Or.inl ⟨taken.trans (Peer.keeps_reconcile _ m), Or.inr ⟨rfl, rfl⟩⟩
  | attends p now => exact Or.inl ⟨p.keeps_applyLocalInputs now, Or.inr ⟨rfl, rfl⟩⟩
  | withholds p => exact Or.inl ⟨.of_eq rfl rfl, Or.inr ⟨rfl, rfl⟩⟩
  | handsOut p now running => exact Or.inr ⟨List.takeWhile_append_dropWhile, running, running⟩
  | runs p c rest now => exact Or.inl ⟨p.keeps_runCommand c now, Or.inl rfl⟩
  | expires p now => exact Or.inl ⟨p.keeps_expireRounds now, Or.inr ⟨rfl, rfl⟩⟩
  | ticks p now => exact Or.inl ⟨p.keeps_runLinkTimers now, Or.inr ⟨rfl, rfl⟩⟩
  | flushes p now => exact Or.inl ⟨p.keeps_flushLog now, Or.inr ⟨rfl, rfl⟩⟩

/-- A session that is over stays so. -/
theorem finished (h : Deed cause a b) (ended : a.peer.isFinished = true) : b.peer.isFinished = true := by
  rcases h.keeps with ⟨keeps, -⟩ | ⟨-, -, running⟩
  · exact keeps.finished ended
  · rw [Peer.isFinished, running] at ended
    cases ended

/-- **A command is run once**: it is the first of those ahead, and not among those ahead afterwards. -/
theorem ran (h : Deed .command a b) : ∃ c rest now, a.ahead = c :: rest ∧ b.ahead <:+ rest ∧
    a.peer.isFinished = false ∧ b.peer = a.peer.runCommand c now := by
  cases h with
  | runs p c rest now on =>
    refine ⟨c, rest ++ p.queue.pending, now, rfl, ?_, on, rfl⟩
    -- If the command ends the session, nothing is ahead any more, be it due or pending.
    unfold Moment.ahead
    dsimp only
    rcases p.keeps_runCommand c now with ⟨queue, -⟩ | ⟨empty, isOver⟩
    · rw [queue]
      split
      · exact List.suffix_append _ _
      · exact List.suffix_refl _
    · rw [if_pos isOver, empty]
      exact List.nil_suffix

/-- The commands ahead are some of those at the end of what was ahead before. -/
theorem shortens (h : Deed cause a b) : b.ahead <:+ a.ahead := by
  rcases h.keeps with ⟨keeps, rfl | ⟨before, after⟩⟩ | ⟨same, -⟩
  · obtain ⟨c, rest, -, first, later, -⟩ := h.ran
    exact first ▸ later.trans (List.suffix_cons c rest)
  · unfold Moment.ahead
    rw [before, after]
    exact keeps.shortens
  · exact same ▸ List.suffix_refl b.ahead

end Deed

/-- **What is over stays over**, whatever is done. -/
theorem Peer.finished_perform (p : Peer) (action : PeerAction) (ended : p.isFinished = true) :
    (p.perform action).isFinished = true := by
  rcases action.step_cases with ⟨dt, rfl⟩ | notStep
  · exact step_keeps (P := fun a => a.peer.isFinished = true) Deed.finished ended
  · exact (p.keeps_perform notStep).finished ended

end Tandem
