import Tandem.Proofs.Matching.Mirror
import Tandem.Proofs.Peer.Desk
import Tandem.Proofs.Peer.ScriptedPauses
/-!
# The coordinator and its fields in a run

Commands, inputs, messages and the clock come to the coordinator of a peer in the order of the stages of a step.  The
fields of the matching task take what is stamped higher.  `Peer.mirrors_of_seamless`: the fields agree with the
coordinator at every moment of a run in which nothing comes too late for the round that it concerns (`Peer.Seamless`).

It may come too late.  Own input is applied before the commands of the step are run, so a step that carries the clock
over the due time of a command that opens a round puts a selection into the round before it, under a stamp above that of
the command: the coordinator forgets the selection with its round, and the field keeps it
(`Peer.not_mirrors_roundsLate`).
-/

namespace Tandem

namespace Battery.Shows

variable {participants : ParticipantId × ParticipantId} {limit : SessionTime} {b b' : Battery}

/-- It depends on the tasks and the coordinator only. -/
theorem alike (h : b.Shows participants limit) (same : b.Alike b') : b'.Shows participants limit where
  orderly := same.matching ▸ h.orderly
  shown := by
    have cells : b'.cell? .matching = b.cell? .matching := funext fun key =>
      congrArg (TaskState.cell? · key) (same.read .matching).symm
    rw [cells, ← same.matching]
    exact h.shown
  participants := same.matching ▸ h.participants
  task := (congrArg TaskState.task (same.read .matching)).symm.trans h.task

end Battery.Shows

/-! ## What comes in time -/

/-- A message that the rounds of a battery can take: an input is for its own task, and what is said of the latest round is
known. -/
def Battery.Expects (b : Battery) : SyncMessage → Prop
  | .forward e _ => e.target = e.payload.task
  | .delta t changes => t = .matching → (b.store.read t).isShared = true → ∀ d ∈ changes, b.matching.Knows d
  | _ => True

instance (b : Battery) (m : SyncMessage) : Decidable (b.Expects m) := by
  cases m <;> unfold Battery.Expects <;> infer_instance

namespace Peer

/-- **Nothing comes too late** for the round that it concerns when a peer goes on to another: a round is opened when
nothing in the one before it is as late, and a message of the other peer finds what it says. -/
structure Seamless (p : Peer) (cause : Cause) (q : Peer) : Prop where
  opens : ∀ r ∈ q.battery.matching.round, q.battery.matching.roundsOpened ≠ p.battery.matching.roundsOpened →
    ∀ last ∈ p.battery.matching.latest?, last.PastBy r.opened
  hears : cause = .message → ∀ m ∈ p.held.head?, p.battery.Expects m

instance (p : Peer) (cause : Cause) (q : Peer) : Decidable (p.Seamless cause q) :=
  decidable_of_iff ((∀ r ∈ q.battery.matching.round,
      q.battery.matching.roundsOpened ≠ p.battery.matching.roundsOpened →
        ∀ last ∈ p.battery.matching.latest?, last.PastBy r.opened) ∧
      (cause = .message → ∀ m ∈ p.held.head?, p.battery.Expects m))
    ⟨fun h => ⟨h.1, h.2⟩, fun h => ⟨h.opens, h.hears⟩⟩

/-- That holds all along a list of peers, each with its cause. -/
def SeamlessAlong : Peer → List (Cause × Peer) → Prop
  | _, [] => True
  | p, next :: rest => p.Seamless next.1 next.2 ∧ next.2.SeamlessAlong rest

instance decidableSeamlessAlong : (p : Peer) → (l : List (Cause × Peer)) → Decidable (p.SeamlessAlong l)
  | _, [] => .isTrue trivial
  | p, next :: rest =>
    have := decidableSeamlessAlong next.2 rest
    inferInstanceAs (Decidable (p.Seamless next.1 next.2 ∧ next.2.SeamlessAlong rest))

/-- The peer when an action begins: a step begins when time has passed and the messages have been fetched. -/
def begun (p : Peer) : PeerAction → Peer
  | .step dt => (p.advanced dt).received
  | _ => p

/-- That holds throughout a run. -/
def SeamlessIn : Peer → List PeerAction → Prop
  | _, [] => True
  | p, action :: rest => (p.begun action).SeamlessAlong (p.moments action) ∧ (p.perform action).SeamlessIn rest

instance decidableSeamlessIn : (p : Peer) → (actions : List PeerAction) → Decidable (p.SeamlessIn actions)
  | _, [] => .isTrue trivial
  | p, action :: rest =>
    have := decidableSeamlessIn (p.perform action) rest
    inferInstanceAs (Decidable (_ ∧ (p.perform action).SeamlessIn rest))

/-- The peers that a run goes through, within its actions and between them. -/
def visits : Peer → List PeerAction → List Peer
  | p, [] => [p]
  | p, action :: rest => p :: (p.moments action).map Prod.snd ++ (p.perform action).visits rest

end Peer

/-! ## What comes to the tasks -/

namespace Battery.Shows

variable {participants : ParticipantId × ParticipantId} {limit : SessionTime} {b : Battery}

theorem onRemoteMessage (h : b.Shows participants limit) (r : Reconciler) (sender : ParticipantId) {m : SyncMessage}
    (expects : b.Expects m) : (r.onRemoteMessage b sender m).2.1.Shows participants limit := by
  unfold Reconciler.onRemoteMessage
  split
  · exact h
  · rename_i shared
    cases m with
    | forward e stamp =>
      dsimp only [Reconciler.onRemoteInput]
      split
      · exact h
      · split
        · exact h
        · have applied := h.applyInput expects stamp (.remoteInput sender)
          generalize b.applyInput e stamp (.remoteInput sender) = out at applied ⊢
          obtain ⟨after, fault | outcome⟩ := out <;> exact applied
    | delta t changes =>
      refine h.told (fun here => expects here ?_) (.remoteDelta sender)
      simpa [SyncMessage.task?, Option.filter_some] using shared
    | heartbeat | hello | start | pause | resume | finish => exact h

theorem onLocalInput (h : b.Shows participants limit) (r : Reconciler) {e : InputEvent}
    (aimed : e.target = e.payload.task) (now : SessionTime) :
    (r.onLocalInput b e now).2.1.Shows participants limit := by
  unfold Reconciler.onLocalInput
  dsimp only
  have applied := h.applyInput aimed (r.clock.issue now).1 (.localInput e.origin)
  generalize b.applyInput e (r.clock.issue now).1 (.localInput e.origin) = out at applied ⊢
  obtain ⟨after, fault | outcome⟩ := out
  · exact applied
  · dsimp only
    split
    · exact applied
    · split <;> exact applied

end Battery.Shows

namespace Peer

variable {participants : ParticipantId × ParticipantId} {limit : SessionTime} {p : Peer}

theorem shows_reconcile (h : p.battery.Shows participants limit) {m : SyncMessage} (expects : p.battery.Expects m) :
    (p.reconcile m).battery.Shows participants limit := by
  have told := h.onRemoteMessage p.reconciler p.config.remoteId expects
  exact told.alike (alike_of_desk (p.desk_reconcile m))

theorem shows_applyInput (h : p.battery.Shows participants limit) (payload : InputPayload) (now : SessionTime) :
    (p.applyInput payload now).battery.Shows participants limit := by
  have applied := h.onLocalInput p.reconciler (e := .captured p.config.localId now payload) rfl now
  exact applied.alike (alike_of_desk (p.desk_applyInput payload now))

theorem shows_applyLocalInputs (h : p.battery.Shows participants limit) (now : SessionTime) :
    (p.applyLocalInputs now).battery.Shows participants limit := by
  unfold applyLocalInputs
  dsimp only
  split
  · exact h
  · exact List.foldlRecOn (motive := fun q : Peer => q.battery.Shows participants limit) _ _ h
      fun q shows payload _ => shows_applyInput shows payload now

theorem shows_expireRounds (h : p.battery.Shows participants limit) (now : SessionTime) :
    (p.expireRounds now).battery.Shows participants limit := by
  unfold expireRounds
  split
  · exact h
  · exact h.expireRounds _

end Peer

/-! ## Runs -/

/-- What is carried through a run: the fields show the latest round, and the commands ahead are due in order, after what
the script has done. -/
structure Moment.InTune (participants : ParticipantId × ParticipantId) (a : Moment) : Prop where
  shows : ∃ limit, a.peer.battery.Shows participants limit ∧ ∀ c ∈ a.ahead, limit ≤ c.due
  order : a.ahead.Pairwise (fun c d => c.dueSecond ≤ d.dueSecond)
  allowed : ∀ c ∈ a.ahead, c.payload.isAllowed = true ∧ c.payload.spares participants = true

namespace Moment.InTune

variable {participants : ParticipantId × ParticipantId} {a b : Moment}

theorem mirrors (h : a.InTune participants) : a.peer.battery.Mirrors := by
  obtain ⟨limit, shows, -⟩ := h.shows
  exact shows.mirrors

/-- Where no command is run the rest of the script stays what it is. -/
theorem goOn (h : a.InTune participants) (shorter : b.ahead <:+ a.ahead)
    (shows : ∀ {limit}, a.peer.battery.Shows participants limit → b.peer.battery.Shows participants limit) :
    b.InTune participants where
  shows := by
    obtain ⟨limit, shown, later⟩ := h.shows
    exact ⟨limit, shows shown, fun c mem => later c (shorter.subset mem)⟩
  order := h.order.sublist shorter.sublist
  allowed c mem := h.allowed c (shorter.subset mem)

end Moment.InTune

/-- **Whatever a peer does in a step**, coordinator and fields stay in tune if it is in time. -/
theorem Deed.inTune {cause : Cause} {a b : Moment} {participants : ParticipantId × ParticipantId} (h : Deed cause a b)
    (before : a.InTune participants) (seamless : a.peer.Seamless cause b.peer) : b.InTune participants := by
  have shorter := h.shortens
  cases h with
  | @heeds p m rest first =>
    have expects : p.battery.Expects m := seamless.hears rfl m (by rw [first]; rfl)
    exact before.goOn shorter fun shows => Peer.shows_reconcile (p := { p with held := rest }) shows expects
  | attends p now => exact before.goOn shorter fun shows => Peer.shows_applyLocalInputs shows now
  | withholds | handsOut => exact before.goOn shorter id
  | runs p c rest now on =>
    obtain ⟨limit, shows, waits⟩ := before.shows
    obtain ⟨c', rest', -, first, later, -⟩ := (Deed.runs p c rest now on).ran
    cases first
    have mem : c ∈ c :: rest ++ p.queue.pending := List.mem_cons_self
    have same := Peer.alike_of_desk (p.desk_runCommand c now)
    have done : (p.battery.run c).1.Shows participants c.due := by
      refine shows.run (waits c mem) (before.allowed c mem).1 (before.allowed c mem).2 ?_
      rw [same.matching]
      exact seamless.opens
    have order := List.pairwise_cons.mp before.order
    refine ⟨⟨c.due, done.alike same, fun d ahead => ?_⟩, order.2.sublist later.sublist, fun d ahead => ?_⟩
    · exact SessionTime.ofSeconds_mono (order.1 d (later.subset ahead))
    · exact before.allowed d (shorter.subset ahead)
  | expires p now => exact before.goOn shorter fun shows => Peer.shows_expireRounds shows now
  | ticks p now => exact before.goOn shorter fun shows => shows.alike (Peer.alike_of_desk (p.desk_runLinkTimers now))
  | flushes p now => exact before.goOn shorter fun shows => shows.alike ⟨rfl, rfl⟩

/-- **Along the deeds of a step** in time, the fields agree with the coordinator after each. -/
theorem Path.inTune {a b : Moment} {l : List (Cause × Peer)} {participants : ParticipantId × ParticipantId}
    (h : Path a l b) (before : a.InTune participants) (seamless : a.peer.SeamlessAlong l) :
    b.InTune participants ∧ ∀ x ∈ l, x.2.battery.Mirrors := by
  induction h with
  | nil => exact ⟨before, List.forall_mem_nil _⟩
  | @cons cause a b c l deed _ ih =>
    obtain ⟨first, rest⟩ : a.peer.Seamless cause b.peer ∧ b.peer.SeamlessAlong l := seamless
    have next := deed.inTune before first
    obtain ⟨after, later⟩ := ih next rest
    exact ⟨after, List.forall_mem_cons.mpr ⟨next.mirrors, later⟩⟩

namespace Peer

variable {participants : ParticipantId × ParticipantId} {p : Peer}

/-- **An action** in time. -/
theorem inTune_perform {action : PeerAction} (before : Moment.InTune participants ⟨p, []⟩)
    (seamless : (p.begun action).SeamlessAlong (p.moments action)) :
    Moment.InTune participants ⟨p.perform action, []⟩ ∧ ∀ x ∈ p.moments action, x.2.battery.Mirrors := by
  rcases action.step_cases with ⟨dt, rfl⟩ | notStep
  · have begun : Moment.InTune participants ⟨(p.advanced dt).received, []⟩ := before.goOn (List.suffix_refl _) id
    rw [perform_step]
    exact (p.advanced dt).path_stages.inTune begun seamless
  · have after : Moment.InTune participants ⟨p.perform action, []⟩ :=
      before.goOn (p.shortens_perform action) fun shows => shows.alike (alike_of_desk (p.desk_perform notStep))
    rw [p.moments_of_notStep notStep]
    exact ⟨after, List.forall_mem_singleton.mpr after.mirrors⟩

/-- **A run** in time. -/
theorem mirrors_of_inTune {actions : List PeerAction} (before : Moment.InTune participants ⟨p, []⟩)
    (seamless : p.SeamlessIn actions) : ∀ q ∈ p.visits actions, q.battery.Mirrors := by
  induction actions generalizing p with
  | nil => exact List.forall_mem_singleton.mpr before.mirrors
  | cons action rest ih =>
    obtain ⟨after, within⟩ := inTune_perform before seamless.1
    refine List.forall_mem_cons.mpr ⟨before.mirrors, List.forall_mem_append.mpr ⟨?_, ih after seamless.2⟩⟩
    exact List.forall_mem_map.mpr within

/-- A peer is in tune with its script before its first connection. -/
theorem inTune_new {config : PeerConfig} {commands : List ScenarioCommand}
    (allowed : ∀ c ∈ commands, c.payload.isAllowed = true ∧ c.payload.spares config.participants = true) :
    Moment.InTune config.participants ⟨Peer.new config commands, []⟩ where
  shows := ⟨.zero, Battery.Shows.new _ _, fun _ _ => UInt64.zero_le⟩
  order := inOrder_new config commands
  allowed c mem := allowed c ((List.mergeSort_perm commands _).mem_iff.mp mem)

/-- **The fields agree with the coordinator** at every moment of a run in which nothing comes too late, whatever the
script asks but to set those fields. -/
theorem mirrors_of_seamless (config : PeerConfig) (commands : List ScenarioCommand)
    (allowed : ∀ c ∈ commands, c.payload.isAllowed = true ∧ c.payload.spares config.participants = true)
    (actions : List PeerAction) (seamless : (Peer.new config commands).SeamlessIn actions) :
    ∀ q ∈ (Peer.new config commands).visits actions, q.battery.Mirrors :=
  mirrors_of_inTune (inTune_new allowed) seamless

/-! ### Two rounds -/

/-- A script that opens a round with one object and, after a second, another round. -/
def twoRounds : List ScenarioCommand :=
  [⟨0, 0, .act (.task .matching) .start, 1, 0⟩, ⟨0, 0, .act (.task .matching) .newRound, 2, 1⟩,
    ⟨0, 0, .act (.task .matching) .addObject, 3, 2⟩, ⟨1, 0, .act (.task .matching) .newRound, 4, 3⟩,
    ⟨30, 0, .act .session .finish, 5, 4⟩]

/-- The host at the beginning. -/
def roundsHost : Peer := .new (.simulated .host) twoRounds

/-- The host meets the guest, and the session starts. -/
def roundsStart : List PeerAction :=
  .transport (.connected 1 Role.guest.simulatedAddress) :: guestFrame 0 (.hello ⟨2⟩ 0) ++ [.step .zero]

/-- Both participants select the object of the first round, and the second one is opened. -/
def roundsInTime : List PeerAction :=
  roundsStart ++ [.submit (.matchSelect ⟨1⟩), .step (.ofMillis 500), .step (.ofMillis 200)] ++
    guestFrame 1 (.forward (InputEvent.captured ⟨2⟩ ⟨600⟩ (.matchSelect ⟨1⟩)) ⟨⟨600⟩, 0, .participant ⟨2⟩⟩) ++
    guestFrame 2 (.delta .matching [⟨"selection-p2", .int 1, ⟨⟨600⟩, 0, .participant ⟨2⟩⟩⟩,
      ⟨"round-status", .text "completed", ⟨⟨600⟩, 0, .participant ⟨2⟩⟩⟩]) ++ [.step .zero, .step (.ofMillis 700)]

/-- The host's participant selects the object, and the host's next step carries the clock beyond the first round. -/
def roundsLate : List PeerAction := roundsStart ++ [.submit (.matchSelect ⟨1⟩), .step (.ofMillis 1500)]

theorem roundsHost_eq : roundsHost = { Peer.new (.simulated .host) [] with queue := ⟨twoRounds, 0, false⟩ } :=
  new_of_sorted _ (by decide)

/-- Where the clock comes to the second round by a smaller step, nothing comes too late. -/
theorem mirrors_of_seamless_roundsInTime : roundsHost.SeamlessIn roundsInTime ∧
    ∀ q ∈ roundsHost.visits roundsInTime, q.battery.Mirrors := by
  have seamless : roundsHost.SeamlessIn roundsInTime := by
    rw [roundsHost_eq]
    decide +kernel
  exact ⟨seamless, mirrors_of_seamless (.simulated .host) twoRounds (by decide +kernel) roundsInTime seamless⟩

/-- The field shows the host's selection in the second round, in which there is none. -/
theorem not_mirrors_roundsLate : (∀ c ∈ twoRounds, c.payload.isAllowed = true ∧
      c.payload.spares (PeerConfig.simulated .host).participants = true) ∧
    ¬ ∀ q ∈ roundsHost.visits roundsLate, q.battery.Mirrors := by
  have facts : ∃ q ∈ roundsHost.visits roundsLate, ∃ r, q.battery.matching.latest? = some r ∧
      q.battery.matching.participants.1 = ⟨1⟩ ∧ r.selections.get? ⟨1⟩ = none ∧
      (q.battery.store.read .matching).get? (Coordinator.selectionKey ⟨1⟩) = some (.int 1) := by
    rw [roundsHost_eq]
    decide +kernel
  refine ⟨by decide +kernel, fun mirrors => ?_⟩
  obtain ⟨q, mem, r, latest, first, unselected, shown⟩ := facts
  have agreed := (mirrors q mem).selected r latest ⟨1⟩ (by rw [first]; exact List.mem_cons_self)
  rw [shown, unselected] at agreed
  cases agreed

end Peer

end Tandem
