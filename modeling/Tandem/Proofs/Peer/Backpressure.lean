import Tandem.Proofs.Peer.Calls
import Tandem.Proofs.Peer.Held
/-!
# When backpressure clears

A peer holds its script back as long as its link asks to be spared, and the link asks for it while at least as many
messages are retained as its watermark says.  Whoever acknowledges every message expects the script to go on.

That is a matter of the watermark alone, which a peer never changes (`Peer.Calls.keeps`).  Unless it is zero, nothing
retained means that the script catches up: it runs the commands that are due, in order and up to one that ends the
session (`Peer.CatchesUp`).  A watermark of zero is accepted as well, and with it the script is held back for good.
-/

namespace Tandem

namespace Link

/-- With nothing retained, a link asks to be spared only if its watermark is zero. -/
theorem isBackpressured_of_nothing {l : Link} (nothing : l.retained.toList = []) :
    l.isBackpressured = decide (l.config.highWatermark = 0) := by
  unfold isBackpressured
  rw [Fifo.size_eq_length, nothing, List.length_nil]
  exact decide_eq_decide.mpr Nat.le_zero

end Link

namespace Peer

/-! ## How the script catches up -/

/-- The commands that are pending and due at a time are run in order: all of them, or those up to one that ends the
session. -/
def CatchesUp (p : Peer) (now : SessionTime) (q : Peer) : Prop :=
  ∃ ran rest, p.queue.pending.filter (fun c => c.due ≤ now) = ran ++ rest ∧
    (rest = [] ∨ ∃ c ∈ ran.getLast?, c.payload = .act .session .finish) ∧
    q = ran.foldl (fun q c => q.runCommand c now) { p with queue := (p.queue.advance now.wholeSeconds).2 }

variable {p : Peer}

/-- A command that ends the session says so. -/
theorem payload_of_finished (on : p.isFinished = false) {c : ScenarioCommand} {now : SessionTime}
    (isOver : (p.runCommand c now).isFinished = true) : c.payload = .act .session .finish := by
  have payload := Battery.payload_of_finish (b := p.battery) (c := c)
  have still : ∀ {q : Peer}, q.phase = p.phase → q.isFinished = true → False := fun phase isOver => by
    rw [isFinished, phase] at isOver
    exact Bool.false_ne_true (on.symm.trans isOver)
  unfold runCommand at isOver
  generalize p.battery.run c = out at payload isOver
  obtain ⟨battery, dispatch⟩ := out
  dsimp only at payload isOver
  cases dispatch with
  | applied | skipped => exact (still rfl isOver).elim
  | session command =>
    cases command with
    | finish => exact payload rfl
    | pause =>
      dsimp only [onSessionCommand, pause] at isOver
      split at isOver
      · exact (still rfl isOver).elim
      · rw [isFinished, phase_send] at isOver
        cases isOver
    | resume =>
      dsimp only [onSessionCommand, resume] at isOver
      split at isOver
      · exact (still rfl isOver).elim
      · rw [isFinished, phase_send] at isOver
        cases isOver
    | log | showLabels | allowEscape | allowAltF4 => exact (still rfl isOver).elim

theorem runCommands_eq (commands : List ScenarioCommand) (on : p.isFinished = false) (now : SessionTime) :
    ∃ ran rest, commands = ran ++ rest ∧ (rest = [] ∨ ∃ c ∈ ran.getLast?, c.payload = .act .session .finish) ∧
      p.runCommands now commands = ran.foldl (fun q c => q.runCommand c now) p := by
  induction commands generalizing p with
  | nil => exact ⟨[], [], rfl, Or.inl rfl, rfl⟩
  | cons c rest ih =>
    unfold runCommands
    dsimp only
    cases isOver : (p.runCommand c now).isFinished with
    | true => exact ⟨[c], rest, rfl, Or.inr ⟨c, rfl, payload_of_finished on isOver⟩, rfl⟩
    | false =>
      obtain ⟨ran, left, split, complete, same⟩ := ih isOver
      refine ⟨c :: ran, left, congrArg (c :: ·) split, ?_, same⟩
      rcases complete with nothing | ⟨last, mem, ends⟩
      · exact Or.inl nothing
      · exact Or.inr ⟨last, by rw [List.getLast?_cons, Option.mem_def.mp mem]; rfl, ends⟩

/-- **Where the link does not ask to be spared**, the script catches up. -/
theorem catchesUp_dispatchScenario (inOrder : p.InOrder)
    (countable : ∀ c ∈ p.queue.pending, c.dueSecond < UInt32.size) (running : p.phase = .running)
    (spared : p.link.isBackpressured = false) (now : SessionTime) : p.CatchesUp now (p.dispatchScenario now) := by
  have due : (p.queue.advance now.wholeSeconds).1 = p.queue.pending.filter (fun c => c.due ≤ now) := by
    refine (List.takeWhile_eq_filter (inOrder.imp fun before reached => ?_)).trans (List.filter_congr fun c mem => ?_)
    · simp only [decide_eq_true_eq] at reached ⊢
      exact Nat.le_trans before reached
    · exact decide_eq_decide.mpr (SessionTime.ofSeconds_le_iff (countable c mem) now).symm
  have on : ({ p with queue := (p.queue.advance now.wholeSeconds).2 } : Peer).isFinished = false := by
    rw [isFinished, running]
    rfl
  obtain ⟨ran, rest, split, complete, same⟩ := runCommands_eq (p.queue.advance now.wholeSeconds).1 on now
  exact ⟨ran, rest, due.symm.trans split, complete, (dispatchScenario_spared running spared now).trans same⟩

theorem keeps_attended (p : Peer) (dt : Duration) : p.Keeps (p.advanced dt).attended := by
  have moved : p.Keeps (p.advanced dt) := .of_eq rfl rfl
  exact (moved.trans (keeps_heard _)).trans (keeps_applyLocalInputs _ _)

/-- A step that holds the script back leaves the queue as it is. -/
theorem keeps_step {dt : Duration} (withheld : (p.advanced dt).withholds = true) : p.Keeps (p.perform (.step dt)) := by
  have idle : (p.advanced dt).attended.Keeps (p.advanced dt).dispatched := by
    show Keeps _ (dispatchScenario _ _)
    unfold dispatchScenario
    split
    · exact .refl _
    · exact (if_pos withheld).symm ▸ .of_eq rfl rfl
  rw [perform_step, run_eq]
  exact ((p.keeps_attended dt).trans idle).trans ((keeps_releaseHeld _).trans (goesOn_close _ _).2)

/-! ## Whole runs -/

theorem calls_attended (p : Peer) (dt : Duration) : p.Calls (p.advanced dt).attended := by
  have moved : p.Calls (p.advanced dt) := .of_eq rfl
  exact (moved.trans (p.advanced dt).calls_heard).trans (calls_applyLocalInputs _ _)

end Peer

/-- **Backpressure clears** in every run of a peer with a configuration: with nothing retained the link does not ask to
be spared, and a step that finds the session running and nothing retained when it comes to the script lets the script
catch up. -/
def PeerConfig.BackpressureClears (config : PeerConfig) : Prop :=
  ∀ commands : List ScenarioCommand, (∀ c ∈ commands, c.dueSecond < UInt32.size) → ∀ actions : List PeerAction,
    let p := (Peer.new config commands).performAll actions
    (p.link.retained.toList = [] → p.link.isBackpressured = false) ∧
      ∀ dt, (p.advanced dt).attended.phase = .running → (p.advanced dt).attended.link.retained.toList = [] →
        (p.advanced dt).attended.CatchesUp (p.advanced dt).heard.now (p.advanced dt).dispatched

namespace PeerConfig

variable {config : PeerConfig}

/-- The watermark of the link is zero only if that of the configuration is. -/
theorem highWatermark_linkConfig (valid : config.check? = none) :
    config.link.linkConfig.highWatermark = 0 ↔ config.link.highWatermark = 0 := by
  have capacity : config.link.outboundCapacity ≠ 0 := by
    intro none
    rw [check?, if_pos none] at valid
    split at valid <;> cases valid
  show min config.link.highWatermark config.link.outboundCapacity = 0 ↔ _
  omega

/-- With a watermark of zero no command is ever run. -/
theorem queue_of_noWatermark (zero : config.link.highWatermark = 0) (commands : List ScenarioCommand)
    (actions : List PeerAction) (on : ((Peer.new config commands).performAll actions).isFinished = false) :
    ((Peer.new config commands).performAll actions).queue = .load commands := by
  have settings : config.link.linkConfig.highWatermark = 0 := by
    show min config.link.highWatermark config.link.outboundCapacity = 0
    omega
  -- The link asks to be spared in every step, so no step takes anything from the queue.
  have kept : ∀ {p : Peer}, p.link.config = config.link.linkConfig → ∀ action, p.Keeps (p.perform action) := by
    intro p same action
    rcases action.step_cases with ⟨dt, rfl⟩ | notStep
    · refine Peer.keeps_step (decide_eq_true ?_)
      rw [(p.calls_attended dt).keeps.1, same, settings]
      exact Nat.zero_le _
    · exact p.keeps_perform notStep
  have along : ((Peer.new config commands).performAll actions).link.config = config.link.linkConfig ∧
      (Peer.new config commands).Keeps ((Peer.new config commands).performAll actions) :=
    Peer.performAll_keeps (P := fun p => p.link.config = config.link.linkConfig ∧ (Peer.new config commands).Keeps p)
      (fun {p} before action => ⟨(p.settings_perform action).trans before.1, before.2.trans (kept before.1 action)⟩)
      actions ⟨rfl, .refl _⟩
  exact along.2.queue_eq rfl on

/-- **When backpressure clears.**  With a configuration that is accepted, it does exactly if the watermark is not zero;
with a watermark of zero no command of the script is ever run. -/
theorem backpressureClears_iff (valid : config.check? = none) :
    (config.BackpressureClears ↔ config.link.highWatermark ≠ 0) ∧
    (config.link.highWatermark = 0 → ∀ commands actions,
      ((Peer.new config commands).performAll actions).isFinished = false →
        ((Peer.new config commands).performAll actions).queue = .load commands) := by
  refine ⟨⟨fun clears zero => ?_, fun positive commands countable actions => ?_⟩, queue_of_noWatermark⟩
  · have spared := (clears [] nofun []).1 rfl
    rw [Link.isBackpressured_of_nothing rfl] at spared
    exact of_decide_eq_false spared ((highWatermark_linkConfig valid).mpr zero)
  · have settings := Peer.settings_performAll config commands actions
    have spared : ∀ {l : Link}, l.config = config.link.linkConfig → l.retained.toList = [] →
        l.isBackpressured = false := fun same nothing => by
      rw [Link.isBackpressured_of_nothing nothing, same]
      exact decide_eq_false fun zero => positive ((highWatermark_linkConfig valid).mp zero)
    refine ⟨spared settings, fun dt running nothing => ?_⟩
    have pending := (Peer.shortens_performAll actions (Peer.new config commands)).trans
      (Peer.keeps_attended _ dt).shortens
    exact Peer.catchesUp_dispatchScenario (pending.inOrder (Peer.inOrder_new config commands))
      (pending.countable countable) running (spared ((Peer.calls_attended _ dt).keeps.1.trans settings) nothing) _

/-- The standard configuration has a watermark. -/
theorem backpressureClears_iff_standard : PeerConfig.standard.BackpressureClears :=
  (backpressureClears_iff (by decide : PeerConfig.standard.check? = none)).1.mpr (by decide)

/-- A watermark of zero is accepted, and a link that has retained nothing asks to be spared. -/
theorem not_backpressureClears_noWatermark : ¬ ∀ config : PeerConfig, config.check? = none →
    config.BackpressureClears := by
  intro claim
  have spared := (claim { PeerConfig.standard with link := { LinkSettings.standard with highWatermark := 0 } }
    (by decide) [] nofun []).1 rfl
  cases spared

end PeerConfig

end Tandem
