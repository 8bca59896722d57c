import Tandem.Proofs.Link.Contents
import Tandem.Proofs.Peer.Calls
import Tandem.Proofs.Reconcile.Locality
/-!
# What is told about the tasks

Messages about the tasks are of two kinds, forwarded inputs and values.  A peer gives its link those that its own inputs
lead to, in the order in which it applies them, and no others (`Peer.reports_perform`): nothing that the script writes,
that a round comes to when it runs out, or that the other peer has sent is told.  `Peer.Bears` follows the messages
through the link up to the frames that are fetched for the connection.
-/

namespace Tandem

namespace Link.Bears

variable {l : Link} {said heard : SyncMessage → Prop}

/-- What a peer gives to its link is what is said. -/
theorem call (h : l.Bears said heard) {c : LinkCall} (own : c.isOwn = true)
    (given : ∀ m, c.given? = some m → said m.arrived) (now : SessionTime) : (l.call now c).Bears said heard := by
  cases c with
  | send m => exact h.send (given m rfl) now
  | tick => exact h.tick now
  | connected => exact h.onConnected now
  | disconnected => exact h.onDisconnected now
  | requeue => exact h.requeue now
  | close => exact h.close now
  | drainOutbound => exact h.drainOutbound.2
  | drainInbound => exact h.drainInbound.2
  | frame f => cases own

theorem callAll (calls : List (SessionTime × LinkCall)) (h : l.Bears said heard)
    (own : ∀ c ∈ calls, c.2.isOwn = true) (given : ∀ m ∈ Link.given calls, said m.arrived) :
    (l.callAll calls).Bears said heard ∧ ∀ f ∈ l.fetchedFrames calls, f.Tells said := by
  induction calls generalizing l with
  | nil => exact ⟨h, fun f mem => absurd mem List.not_mem_nil⟩
  | cons first rest ih =>
    obtain ⟨now, c⟩ := first
    obtain ⟨ownFirst, ownRest⟩ := List.forall_mem_cons.mp own
    have after := h.call ownFirst
      (fun m gives => given m (List.mem_filterMap.mpr ⟨(now, c), List.mem_cons_self, gives⟩)) now
    obtain ⟨bears, tell⟩ := ih after ownRest fun m mem => by
      obtain ⟨d, later, gives⟩ := List.mem_filterMap.mp mem
      exact given m (List.mem_filterMap.mpr ⟨d, List.mem_cons_of_mem _ later, gives⟩)
    refine ⟨bears, ?_⟩
    cases c with
    | drainOutbound => exact fun f mem => (List.mem_append.mp mem).elim (h.drainOutbound.1 f) (tell f)
    | send | tick | connected | disconnected | requeue | close | drainInbound | frame => exact tell

end Link.Bears

namespace Peer

/-- What a peer has for the connection has been `said`, and what waits in its link may be `heard`. -/
structure Bears (p : Peer) (said heard : SyncMessage → Prop) : Prop where
  link : p.link.Bears said heard
  finals : ∀ f ∈ p.finalFrames, f.Tells said

variable {p q : Peer} {said heard : SyncMessage → Prop}

namespace Bears

theorem new (config : PeerConfig) (commands : List ScenarioCommand) : (Peer.new config commands).Bears said heard :=
  ⟨.new _ _ _, fun _ mem => absurd mem List.not_mem_nil⟩

/-- What is reported has to be said, and so has every message that is no news. -/
theorem reports (h : p.Bears said heard) {news : List SyncMessage} (goes : p.Reports news q)
    (told : ∀ m ∈ news, said m.arrived) (signals : ∀ m : SyncMessage, m.isNews = false → said m.arrived) :
    q.Bears said heard := by
  obtain ⟨calls, uses, rfl⟩ := goes
  have given : ∀ m ∈ Link.given calls, said m.arrived := by
    intro m mem
    cases kind : m.isNews with
    | true => exact told m (List.mem_filter.mpr ⟨mem, kind⟩)
    | false => exact signals m kind
  obtain ⟨link, fetched⟩ := Link.Bears.callAll calls h.link uses.own given
  exact ⟨uses.link ▸ link, fun f mem => (uses.finals f mem).elim (h.finals f) (fetched f)⟩

/-- The link takes a frame that tells what may be heard. -/
theorem noted (h : p.Bears said heard) (action : PeerAction)
    (comes : ∀ epoch f, action = .transport (.frame epoch f) → f.Tells heard) : (p.noted action).Bears said heard := by
  unfold Peer.noted
  split
  · rename_i epoch f
    split
    · have finals : (p.took f).finalFrames = p.finalFrames := congrArg Stance.finals (p.stance_took f)
      exact ⟨p.link_took f ▸ h.link.onFrame (comes epoch f rfl) p.now, finals ▸ h.finals⟩
    · exact h
  · exact h

theorem perform (h : p.Bears said heard) (action : PeerAction)
    (comes : ∀ epoch f, action = .transport (.frame epoch f) → f.Tells heard)
    (told : ∀ m ∈ p.news action, said m.arrived) (signals : ∀ m : SyncMessage, m.isNews = false → said m.arrived) :
    (p.perform action).Bears said heard :=
  (h.noted action comes).reports (p.reports_perform action) told signals

/-- **The frames that are fetched for the connection** tell what has been said. -/
theorem transmits (h : p.Bears said heard) : ∀ f ∈ p.pollTransmit.1, f.Tells said :=
  fun f mem => (List.mem_append.mp mem).elim (h.finals f) (h.link.drainOutbound.1 f)

end Bears

/-- The news of a run, in order. -/
def newsAll : Peer → List PeerAction → List SyncMessage
  | _, [] => []
  | p, action :: rest => p.news action ++ (p.perform action).newsAll rest

theorem Bears.performAll (actions : List PeerAction) (h : p.Bears said heard)
    (comes : ∀ f : Frame, f.Tells heard) (told : ∀ m ∈ p.newsAll actions, said m.arrived)
    (signals : ∀ m : SyncMessage, m.isNews = false → said m.arrived) : (p.performAll actions).Bears said heard := by
  induction actions generalizing p with
  | nil => exact h
  | cons action rest ih =>
    obtain ⟨here, later⟩ := List.forall_mem_append.mp told
    exact ih (h.perform action (fun _ f _ => comes f) here signals) later

end Peer

/-- The message of an input, as the other peer reads it. -/
theorem SyncMessage.isNews_arrived (m : SyncMessage) : m.arrived.isNews = m.isNews := by
  cases m <;> rfl

/-- **Local tasks are isolated, and nothing is echoed.**  Whatever is received, a local task keeps its fields, its
version and its last participant, and so does the coordinator if its task is local and forwarded inputs are aimed, as
all are that come off the wire.  Nothing is said of an input for a local task.  In each action of a peer the messages
about tasks that it gives to its link are, in this order, those that its own inputs lead to; and every such message in a
frame that it ever has for the connection is one of them. -/
theorem isolation :
    (∀ (r : Reconciler) (b : Battery) (messages : List (ParticipantId × SyncMessage)),
      (∀ t, (b.store.read t).IsLocal → (r.takeAll b messages).2.store.read t = b.store.read t) ∧
        ((∀ m ∈ messages, m.2.Aimed) → (b.store.read .matching).IsLocal →
          (r.takeAll b messages).2.matching = b.matching)) ∧
    (∀ (type : MessageType) (payload : Octets) (m : SyncMessage),
      SyncMessage.decode type payload = .ok m → m.Aimed) ∧
    (∀ (r : Reconciler) (b : Battery) (e : InputEvent) (now : SessionTime),
      (b.store.read e.target).IsLocal → (r.onLocalInput b e now).2.2 = []) ∧
    (∀ (p : Peer) (action : PeerAction), (p.noted action).Reports (p.news action) (p.perform action)) ∧
    ∀ (config : PeerConfig) (commands : List ScenarioCommand) (actions : List PeerAction),
      ∀ f ∈ ((Peer.new config commands).performAll actions).pollTransmit.1,
        f.Tells fun m => m.isNews = true → ∃ own ∈ (Peer.new config commands).newsAll actions, m = own.arrived := by
  refine ⟨Reconciler.local_takeAll, fun _ _ _ => SyncMessage.aimed_of_decode, fun r _ _ now here =>
    r.silent_of_isLocal here now, Peer.reports_perform, fun config commands actions => ?_⟩
  let said : SyncMessage → Prop := fun m =>
    m.isNews = true → ∃ own ∈ (Peer.new config commands).newsAll actions, m = own.arrived
  -- Whatever the other peer sends, it is not told again, so nothing is asked of it.
  have bears : ((Peer.new config commands).performAll actions).Bears said fun _ => True := by
    refine .performAll actions (.new config commands) (fun f _ _ _ => trivial) (fun m mem _ => ⟨m, mem, rfl⟩) ?_
    intro m signal news
    rw [m.isNews_arrived, signal] at news
    cases news
  exact bears.transmits

/-- The script keeps the tracking task and the matching task local. -/
def secludedBattery : Battery :=
  (((Battery.new 0 (⟨1⟩, ⟨2⟩)).run ⟨0, 0, .set (.task .tracking) "network" "no", 1, 0⟩).1.run
    ⟨0, 0, .set (.task .matching) "network" "no", 2, 1⟩).1

/-- What the other participant might say of them. -/
def intrusions : List (ParticipantId × SyncMessage) :=
  [(⟨2⟩, .delta .tracking [⟨"cursor", .point .zero .zero, ⟨⟨100⟩, 0, .participant ⟨2⟩⟩⟩]),
    (⟨2⟩, .forward ⟨⟨2⟩, false, .matching, ⟨100⟩, .matchSelect ⟨0⟩⟩ ⟨⟨100⟩, 0, .participant ⟨2⟩⟩)]

/-- The participant moves the cursor of a shared task. -/
def movingRun : List PeerAction := Peer.moveRun ++ [.step (.ofMillis 200)]

theorem isolation_secludedBattery :
    ((Reconciler.new ⟨1⟩).takeAll secludedBattery intrusions).2.store.read .tracking =
        secludedBattery.store.read .tracking ∧
      ((Reconciler.new ⟨1⟩).takeAll secludedBattery intrusions).2.matching = secludedBattery.matching ∧
      ((Reconciler.new ⟨1⟩).onLocalInput secludedBattery (.captured ⟨1⟩ ⟨50⟩ (.trackingMove .zero .zero)) ⟨50⟩).2.2 =
        [] ∧
      ∃ f ∈ ((Peer.new (Peer.narrowConfig 3) Peer.startScript).performAll movingRun).pollTransmit.1,
        ∃ m, f.message = .ok m ∧ m.isNews = true ∧
          ∃ own ∈ (Peer.new (Peer.narrowConfig 3) Peer.startScript).newsAll movingRun, m = own.arrived := by
  have tracking : (secludedBattery.store.read .tracking).IsLocal := Or.inr (by decide +kernel)
  have matching : (secludedBattery.store.read .matching).IsLocal := Or.inr (by decide +kernel)
  have aimed : ∀ m ∈ intrusions, m.2.Aimed := by
    intro m mem
    simp only [intrusions, List.mem_cons, List.not_mem_nil, or_false] at mem
    rcases mem with rfl | rfl
    · trivial
    · rfl
  have tells : (((Peer.new (Peer.narrowConfig 3) Peer.startScript).performAll movingRun).pollTransmit.1.any fun f =>
      f.seq ≠ unsequenced && f.message.toOption.any SyncMessage.isNews) = true := by
    rw [Peer.new_of_sorted _ (by decide)]
    decide +kernel
  obtain ⟨f, fetched, tells⟩ := List.any_eq_true.mp tells
  rw [Bool.and_eq_true, decide_eq_true_eq] at tells
  obtain ⟨numbered, tells⟩ := tells
  obtain ⟨keeps, -, silent, -, transmits⟩ := isolation
  refine ⟨(keeps _ _ _).1 .tracking tracking, (keeps _ _ _).2 aimed matching, silent _ _ _ _ tracking, f, fetched, ?_⟩
  cases carried : f.message with
  | error fault =>
    rw [carried] at tells
    cases tells
  | ok m =>
    rw [carried] at tells
    exact ⟨m, rfl, tells, transmits _ _ _ f fetched numbered m carried tells⟩

end Tandem
