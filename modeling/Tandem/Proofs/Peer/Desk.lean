import Tandem.Proofs.Peer.Finished
/-!
# What a peer writes to

A peer writes to its tasks and its rounds, and it writes in its own name and under the stamps of its clock.  These are
its *desk* (`Peer.desk`).  Most of what a peer does leaves the desk as it is.  A message of the other peer, an own input
and a command of the script come to what the reconciler and the battery make of them, whatever the peer tells and
whatever becomes of the session besides (`desk_reconcile`, `desk_applyInput`, `desk_runCommand`).
-/

namespace Tandem

namespace Peer

variable {p q : Peer}

/-- What a peer writes with, and what it writes to. -/
def desk (p : Peer) : PeerConfig × Reconciler × PerTask TaskState × Coordinator :=
  (p.config, p.reconciler, p.battery.store.tasks, p.battery.matching)

/-- Where the desk is the same, the tasks and the rounds are. -/
theorem alike_of_desk (same : q.desk = p.desk) : p.battery.Alike q.battery := by
  simp only [desk, Prod.mk.injEq] at same
  obtain ⟨-, -, tasks, matching⟩ := same
  exact ⟨tasks.symm, matching.symm⟩

/-! ## What leaves it alone -/

@[simp] theorem desk_send (p : Peer) (m : SyncMessage) (now : SessionTime) : (p.send m now).desk = p.desk := by
  unfold send
  split <;> rfl

@[simp] theorem desk_conclude (p : Peer) (now : SessionTime) : (p.conclude now).desk = p.desk := rfl

@[simp] theorem desk_pause (p : Peer) : p.pause.desk = p.desk := by
  unfold pause
  split
  · rfl
  · exact desk_send _ _ _

@[simp] theorem desk_resume (p : Peer) : p.resume.desk = p.desk := by
  unfold resume
  split
  · rfl
  · exact desk_send _ _ _

@[simp] theorem desk_terminate (p : Peer) : p.terminate.desk = p.desk := by
  unfold terminate
  split
  · rfl
  · exact p.desk_send .finish p.now

@[simp] theorem desk_onSessionCommand (p : Peer) (c : SessionCommand) (now : SessionTime) :
    (p.onSessionCommand c now).desk = p.desk := by
  cases c with
  | finish => exact p.desk_terminate
  | pause => exact p.desk_pause
  | resume => exact p.desk_resume
  | log | showLabels | allowEscape | allowAltF4 => rfl

@[simp] theorem desk_onControl (p : Peer) (m : SyncMessage) : (p.onControl m).desk = p.desk := by
  cases m with
  | start | pause | resume =>
    dsimp only [onControl, onStart, onPause, onResume]
    split <;> rfl
  | finish =>
    dsimp only [onControl]
    split <;> rfl
  | delta | forward | heartbeat | hello => rfl

@[simp] theorem desk_runLinkTimers (p : Peer) (now : SessionTime) : (p.runLinkTimers now).desk = p.desk := by
  unfold runLinkTimers
  split
  · rfl
  · dsimp only
    split <;> rfl
  · rfl

theorem desk_onTransport (p : Peer) (e : TransportEvent) : (p.onTransport e).desk = p.desk := by
  cases e with
  | connected => rfl
  | frame epoch f =>
    dsimp only [onTransport]
    split
    · have took : (p.took f).desk = p.desk := by
        unfold took
        split <;> rfl
      refine Eq.trans ?_ took
      show ((p.took f).maybeStart p.now).desk = _
      unfold maybeStart
      split
      · rfl
      · exact desk_send _ _ _
    · rfl
  | disconnected epoch =>
    dsimp only [onTransport]
    split <;> rfl

/-- Only a step writes. -/
theorem desk_perform (p : Peer) {action : PeerAction} (notStep : ∀ dt, action ≠ .step dt) :
    (p.perform action).desk = p.desk := by
  cases action with
  | step dt => exact absurd rfl (notStep dt)
  | submit | pollTransmit | requeueOutbound | drainNotifications => rfl
  | pause => exact p.desk_pause
  | resume => exact p.desk_resume
  | terminate => exact p.desk_terminate
  | escape =>
    rw [perform_escape]
    split
    · exact p.desk_terminate
    · rfl
  | transport e => exact p.desk_onTransport e

/-! ## What writes -/

/-- A message that steers the session is for the peer, and any other is for the reconciler. -/
theorem desk_reconcile (p : Peer) (m : SyncMessage) :
    (p.reconcile m).desk = { p with
      reconciler := (p.reconciler.onRemoteMessage p.battery p.config.remoteId m).1
      battery := (p.reconciler.onRemoteMessage p.battery p.config.remoteId m).2.1 }.desk := by
  unfold reconcile
  cases m.writeTime? with
  | none | some time =>
    dsimp only [noteRemoteTime]
    split
    · rfl
    · rfl
    · rfl
    · rfl
    · exact desk_onControl _ _

/-- What is sent of an input is not written. -/
theorem desk_applyInput (p : Peer) (payload : InputPayload) (now : SessionTime) :
    (p.applyInput payload now).desk = { p with
      reconciler := (p.reconciler.onLocalInput p.battery (.captured p.config.localId now payload) now).1
      battery := (p.reconciler.onLocalInput p.battery (.captured p.config.localId now payload) now).2.1 }.desk := by
  unfold applyInput
  refine List.foldlRecOn (motive := fun q : Peer => q.desk = _) _ _ rfl fun q same m _ => ?_
  exact (q.desk_send m now).trans same

/-- A command for the session as a whole is for the peer, and any other is for the battery. -/
theorem desk_runCommand (p : Peer) (c : ScenarioCommand) (now : SessionTime) :
    (p.runCommand c now).desk =
      { p with reconciler := p.reconciler.observe c.stamp, battery := (p.battery.run c).1 }.desk := by
  unfold runCommand
  dsimp only
  split
  · rfl
  · exact desk_onSessionCommand _ _ _
  · rfl

end Peer

end Tandem
