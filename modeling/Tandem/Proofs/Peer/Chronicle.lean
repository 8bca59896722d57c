import Tandem.Proofs.Link.Crossing
import Tandem.Proofs.Peer.Speech
/-!
# What two peers have told each other

A *chronicle* is a duet together with what has gone through its links: the messages that each link has accepted, the
ones that each peer has fetched, and whether a peer has taken a hello of the other one on the connection that it knows.
Neither peer reads it.  A link keeps what it has accepted until the other end has it, so what it accepts in a move is
what it retains at the end of it (`Link.acceptedSince`).

`Chronicle.Kept` ties a chronicle to two links with their records, of which everything in `Tandem.Crossing` holds.
There is one lemma for each move of the duet, and each comes with the fairness of the lanes.
-/

namespace Tandem

open Link

/-- The frames that a link has accepted since it was an earlier one; they are the last that it retains. -/
def Link.acceptedSince (l before : Link) : List Frame :=
  l.retained.toList.drop (l.retained.toList.length - (l.nextSeq - before.nextSeq).toNat)

/-- The messages in frames, as far as they can be read. -/
def Frame.messages (frames : List Frame) : List SyncMessage := frames.filterMap (fun f => f.message.toOption)

namespace LinkEnd

variable {a a' b : LinkEnd}

/-- What is retained is what has been said last. -/
theorem Coherent.messages_retained (h : a.Coherent) (n : Nat) : Frame.messages (a.link.stream.retained.drop n) =
    a.said.drop (a.released + n) := by
  have carried : a.link.stream.retained.map Frame.message = (a.said.drop a.released).map Except.ok := by
    have fits := h.fits
    refine List.ext_getElem ?_ fun i here there => ?_
    · rw [List.length_map, List.length_map, List.length_drop, length_said, released]
      omega
    · rw [List.getElem_map, List.getElem_map, List.getElem_drop]
      rw [List.length_map] at here
      obtain ⟨p, place, carries⟩ := h.kept i _ (List.getElem?_eq_getElem here)
      obtain ⟨inside, rfl⟩ := List.getElem?_eq_some_iff.mp place
      rw [carries.2]
      exact congrArg Except.ok (List.getElem_map (fun p : UInt64 × SyncMessage => p.2.arrived)).symm
  have told : ∀ l : List Frame, Frame.messages l = (l.map Frame.message).filterMap Except.toOption := fun l => by
    rw [List.filterMap_map]
    rfl
  have read : ∀ l : List SyncMessage, (l.map Except.ok).filterMap (Except.toOption (ε := Fault)) = l := fun l => by
    rw [List.filterMap_map]
    exact List.filterMap_some
  rw [told, List.map_drop, carried, ← List.map_drop, read, List.drop_drop]

/-- **What a link has accepted meanwhile**, if it has let go of nothing else. -/
theorem said_since (before : a.Coherent) (after : a'.Coherent) (more : a.numbered <+: a'.numbered)
    (kept : a'.released ≤ a.numbered.length) (room : a'.link.stream.capacity < UInt64.size) :
    a'.said = a.said ++ Frame.messages (a'.link.acceptedSince a.link) := by
  obtain ⟨rest, split⟩ := more
  have fits := after.fits
  have length : a.numbered.length + rest.length = a'.numbered.length := by rw [← split, List.length_append]
  have few : rest.length ≤ a'.link.stream.retained.length := by
    rw [released] at kept
    omega
  have bounded := after.bounded
  -- The numbers wrap around, but the link has accepted fewer than its capacity since.
  have number : (a'.link.nextSeq - a.link.nextSeq).toNat = rest.length := by
    have next : a.link.nextSeq = UInt64.ofNat (a.numbered.length + 1) := before.next
    have next' : a'.link.nextSeq = UInt64.ofNat (a'.numbered.length + 1) := after.next
    rw [next, next', ← length, Nat.add_right_comm, Nat.add_comm, UInt64.ofNat_add, UInt64.add_sub_cancel]
    exact UInt64.toNat_ofNat_of_lt' (by omega)
  have place : a'.released + (a'.link.stream.retained.length - rest.length) = a.said.length := by
    rw [released, length_said]
    omega
  have front : a.said ++ a'.said.drop a.said.length = a'.said :=
    List.prefix_iff_eq_append.mp (List.IsPrefix.map _ ⟨rest, split⟩)
  have messages := after.messages_retained (a'.link.stream.retained.length - rest.length)
  rw [place] at messages
  rw [Link.acceptedSince, number, ← front]
  exact congrArg (a.said ++ ·) (messages.symm.trans rfl)

end LinkEnd

/-- A peer that has been told of a connection, or that it is gone. -/
def Peer.told (p : Peer) (epoch : UInt64) (joined : Bool) : Peer :=
  { p with
    epoch := if joined then some epoch else none
    link := if joined then p.link.onConnected p.now else p.link.onDisconnected p.now }

instance Role.decidableForall {P : Role → Prop} [∀ r, Decidable (P r)] : Decidable (∀ r, P r) :=
  decidable_of_iff (P .host ∧ P .guest) ⟨fun h => Role.forall_of .host h.1 h.2, fun h => ⟨h .host, h .guest⟩⟩

/-! ## Chronicles -/

/-- A duet and what has gone through its links. -/
structure Chronicle where
  duet : Duet
  /-- The messages that the link at an end has accepted, as the other end reads them. -/
  said : Ends (List SyncMessage)
  /-- The messages that the peer at an end has fetched. -/
  fetched : Ends (List SyncMessage)
  /-- Whether the peer at an end has taken a hello of the other one since it was told of its connection. -/
  greeted : Ends Bool

namespace Duet

section move

variable {x : Duet} {r : Role}

theorem move_disconnected {epoch : UInt64} (known : (x.peer r).epoch = some epoch) (reason : String) :
    x.move (.disconnected r reason) = x.act r (.transport (.disconnected epoch reason)) := by
  unfold move
  dsimp only
  rw [known]

/-- A peer that knows of no connection cannot be told that it is gone. -/
theorem move_disconnected_none (known : (x.peer r).epoch = none) (reason : String) :
    x.move (.disconnected r reason) = x := by
  unfold move
  dsimp only
  rw [known]

theorem move_receive {f : Frame} {rest : List Frame} (first : x.wires.get r = f :: rest)
    (connected : x.isConnected r = true) :
    x.move (.receive r) = { x with wires := x.wires.set r rest }.act r (.transport (.frame x.epoch f)) := by
  unfold move
  dsimp only
  rw [first]
  exact if_pos connected

/-- Where nothing is on the way, or the connection is not known, nothing is received. -/
theorem move_receive_none (nothing : x.wires.get r = [] ∨ x.isConnected r = false) : x.move (.receive r) = x := by
  unfold move
  dsimp only
  split
  · rfl
  · rename_i f rest first
    refine if_neg ?_
    rw [nothing.resolve_left (by rw [first]; exact List.cons_ne_nil f rest)]
    exact Bool.false_ne_true

/-- Whether or not the frames get on the way, only the peer that has drained them changes. -/
theorem move_transmit (x : Duet) (r : Role) : x.move (.transmit r) =
    { x.act r .pollTransmit with
      wires := if x.isConnected r then x.wires.set r.other (x.wires.get r.other ++ (x.peer r).pollTransmit.1)
        else x.wires } := by
  unfold move
  dsimp only
  split <;> rfl

end move

/-- The messages that the peer at an end fetches in a move. -/
def fetches (x : Duet) (r : Role) : DuetMove → List SyncMessage
  | .own s action _ => if s = r then (x.peer r).fetches action else []
  | _ => []

/-- Whether the next frame on the way to an end is a hello that is believed there. -/
def greets (x : Duet) (r : Role) : Bool :=
  match x.wires.get r with
  | f :: _ => x.isConnected r && LineEnd.isMetBy (x.peer r).link f (x.peer r).now
  | [] => false

end Duet

namespace Chronicle

/-- The chronicle after a move. -/
def move (c : Chronicle) (move : DuetMove) : Chronicle :=
  let accepted r := Frame.messages (((c.duet.move move).peer r).link.acceptedSince (c.duet.peer r).link)
  { duet := c.duet.move move
    said := ⟨c.said.host ++ accepted .host, c.said.guest ++ accepted .guest⟩
    fetched := ⟨c.fetched.host ++ c.duet.fetches .host move, c.fetched.guest ++ c.duet.fetches .guest move⟩
    greeted :=
      match move with
      | .own _ _ _ | .transmit _ => c.greeted
      | .reopen => ⟨false, false⟩
      | .connected r => c.greeted.set r false
      | .disconnected r _ => if (c.duet.peer r).epoch.isSome then c.greeted.set r false else c.greeted
      | .receive r => c.greeted.set r (c.greeted.get r || c.duet.greets r) }

/-- The chronicle after a run. -/
def after (c : Chronicle) (moves : List DuetMove) : Chronicle := moves.foldl move c

/-- No heartbeat is ready to be sent at a peer that has not taken a hello on the connection that it has been told
of. -/
def Patient (c : Chronicle) : Prop := ∀ r, c.duet.isConnected r = true → c.greeted.get r = false →
  ∀ f ∈ (c.duet.peer r).finalFrames ++ (c.duet.peer r).link.outbox.toList, f.beat? = none

/-- Before every move of a run heartbeats wait for hellos. -/
def PatientRun (c : Chronicle) : List DuetMove → Prop
  | [] => True
  | move :: rest => c.Patient ∧ (c.move move).PatientRun rest

/-- The numbers of both links last. -/
def Few (c : Chronicle) : Prop := ∀ r, (c.said.get r).length + 1 < UInt64.size

instance decidablePatient (c : Chronicle) : Decidable c.Patient :=
  Role.decidableForall (P := fun r => c.duet.isConnected r = true → c.greeted.get r = false →
    ∀ f ∈ (c.duet.peer r).finalFrames ++ (c.duet.peer r).link.outbox.toList, f.beat? = none)

instance decidablePatientRun (c : Chronicle) : (moves : List DuetMove) → Decidable (c.PatientRun moves)
  | [] => inferInstanceAs (Decidable True)
  | move :: rest =>
    have := decidablePatientRun (c.move move) rest
    inferInstanceAs (Decidable (c.Patient ∧ (c.move move).PatientRun rest))

instance decidableFew (c : Chronicle) : Decidable c.Few :=
  Role.decidableForall (P := fun r => (c.said.get r).length + 1 < UInt64.size)

/-- A chronicle as a crossing, given what the links have recorded. -/
def crossing (c : Chronicle) (x : Ends LinkEnd) : Crossing :=
  ⟨⟨(c.duet.peer .host).voice x.host, (c.duet.peer .guest).voice x.guest⟩,
    ⟨c.duet.isConnected .host, c.duet.isConnected .guest⟩, c.greeted, c.duet.wires⟩

/-- A chronicle tells what two links have recorded. -/
structure Kept (session : SessionId) (c : Chronicle) (x : Ends LinkEnd) : Prop where
  link : ∀ r, (x.get r).link = (c.duet.peer r).link
  said : ∀ r, (x.get r).said = c.said.get r
  fetched : ∀ r, (x.get r).fetched = c.fetched.get r
  sure : (c.crossing x).Sure session
  wise : ∀ r, (c.duet.peer r).Wise
  listens : ∀ r, (c.duet.peer r).Listens (c.fetched.get r)
  /-- A peer that has been told of a connection has a link that is connected, unless it is closed. -/
  tuned : ∀ r, (c.duet.peer r).epoch.isSome = true → (c.duet.peer r).link.state ≠ .closed →
    (c.duet.peer r).link.bond.connected = true

variable {session : SessionId} {c : Chronicle} {x : Ends LinkEnd} {r : Role}

section access

@[simp] theorem get_said_move (c : Chronicle) (m : DuetMove) (r : Role) : (c.move m).said.get r =
    c.said.get r ++ Frame.messages (((c.duet.move m).peer r).link.acceptedSince (c.duet.peer r).link) := by
  cases r <;> rfl

@[simp] theorem get_fetched_move (c : Chronicle) (m : DuetMove) (r : Role) : (c.move m).fetched.get r =
    c.fetched.get r ++ c.duet.fetches r m := by
  cases r <;> rfl

@[simp] theorem duet_move (c : Chronicle) (m : DuetMove) : (c.move m).duet = c.duet.move m := rfl

@[simp] theorem acceptedSince_self (l : Link) : l.acceptedSince l = [] := by
  rw [acceptedSince, UInt64.sub_self]
  exact List.drop_eq_nil_of_le (Nat.le_refl _)

@[simp] theorem records_crossing (c : Chronicle) (x : Ends LinkEnd) : (c.crossing x).records = x := rfl

@[simp] theorem record_crossing (c : Chronicle) (x : Ends LinkEnd) (r : Role) : (c.crossing x).record r = x.get r := by
  cases r <;> rfl

@[simp] theorem voices_crossing (c : Chronicle) (x : Ends LinkEnd) (r : Role) :
    (c.crossing x).voices.get r = (c.duet.peer r).voice (x.get r) := by
  cases r <;> rfl

@[simp] theorem joined_crossing (c : Chronicle) (x : Ends LinkEnd) (r : Role) :
    (c.crossing x).joined.get r = c.duet.isConnected r := by
  cases r <;> rfl

/-- A chronicle as a crossing when one end has changed. -/
theorem crossing_move {m : DuetMove} (there : (c.duet.move m).peer r.other = c.duet.peer r.other)
    (epoch : (c.duet.move m).epoch = c.duet.epoch) (e : LinkEnd) : (c.move m).crossing (x.set r e) =
      ⟨(c.crossing x).voices.set r (((c.duet.move m).peer r).voice e),
        (c.crossing x).joined.set r ((c.duet.move m).isConnected r), (c.move m).greeted, (c.duet.move m).wires⟩ := by
  have apart : (c.duet.move m).isConnected r.other = c.duet.isConnected r.other := by
    rw [Duet.isConnected, Duet.isConnected, there, epoch]
  unfold crossing
  cases r
  · have there : (c.duet.move m).peer .guest = c.duet.peer .guest := there
    have apart : (c.duet.move m).isConnected .guest = c.duet.isConnected .guest := apart
    rw [duet_move, there, apart]
    rfl
  · have there : (c.duet.move m).peer .host = c.duet.peer .host := there
    have apart : (c.duet.move m).isConnected .host = c.duet.isConnected .host := apart
    rw [duet_move, there, apart]
    rfl

/-- What is known of the connection, when a peer stays in it. -/
theorem joined_move {m : DuetMove} (peer : ((c.duet.move m).peer r).epoch = (c.duet.peer r).epoch)
    (epoch : (c.duet.move m).epoch = c.duet.epoch) :
    (c.crossing x).joined.set r ((c.duet.move m).isConnected r) = (c.crossing x).joined := by
  have same : (c.duet.move m).isConnected r = c.duet.isConnected r := by
    rw [Duet.isConnected, Duet.isConnected, peer, epoch]
  rw [same, ← joined_crossing c x, Ends.set_get]

end access

/-- What has been said before a move is few. -/
theorem Few.before {m : DuetMove} (few : (c.move m).Few) : c.Few := by
  intro r
  have after := few r
  rw [get_said_move, List.length_append] at after
  omega

theorem Kept.patient (h : c.Kept session x) (patient : c.Patient) : (c.crossing x).Patient := by
  intro r joined greeted
  have joined : (c.crossing x).joined.get r = true := joined
  rw [joined_crossing] at joined
  have silent := Frame.beats_of_silent (patient r joined greeted)
  show ((c.crossing x).voices.get r).beats = []
  rw [voices_crossing]
  show Frame.beats (c.duet.peer r).finalFrames ++ Frame.beats (x.get r).link.outbox.toList = []
  rw [h.link r, ← Frame.beats_append, silent]

theorem Kept.few (h : c.Kept session x) (few : c.Few) (r : Role) : (x.get r).numbered.length + 1 < UInt64.size := by
  rw [← LinkEnd.length_said, h.said r]
  exact few r

/-- **A chronicle goes on** when one end does something. -/
theorem Kept.change (h : c.Kept session x) {m : DuetMove} {e : LinkEnd} (few : (c.move m).Few)
    (there : (c.duet.move m).peer r.other = c.duet.peer r.other) (nothing : c.duet.fetches r.other m = [])
    (link : e.link = ((c.duet.move m).peer r).link) (fetched : e.fetched = (x.get r).fetched ++ c.duet.fetches r m)
    (wise : ((c.duet.move m).peer r).Wise)
    (listens : ((c.duet.move m).peer r).Listens (c.fetched.get r ++ c.duet.fetches r m))
    (sound : Exchange.Sound (x.set r e)) (more : (x.get r).numbered <+: e.numbered)
    (after : e.numbered.length + 1 < UInt64.size → ((c.move m).crossing (x.set r e)).Sure session ∧
      (((c.duet.move m).peer r).epoch.isSome = true → e.link.state ≠ .closed → e.link.bond.connected = true)) :
    (c.move m).Kept session (x.set r e) := by
  have here := x.get_set_self r e
  have aside := x.get_set_other r e
  have before := h.few few.before r
  have coherent := sound.coherent r
  have flow := sound.flow r
  have room := sound.room r
  rw [here] at coherent flow room
  rw [aside] at flow
  -- A link lets go only of what the other end has, so it retains all that it has accepted in the move.
  have enough : (x.get r.other).through ≤ (x.get r).numbered.length := (h.sure.sound.flow r).enough
  have kept : e.released ≤ (x.get r).numbered.length :=
    Nat.le_trans (flow.released_le (Nat.lt_of_le_of_lt (Nat.succ_le_succ enough) before)) enough
  have said : e.said = (c.move m).said.get r := by
    rw [LinkEnd.said_since (h.sure.sound.coherent r) coherent more kept room, get_said_move]
    rw [records_crossing, h.said r, link, h.link r]
  have numbered : e.numbered.length + 1 < UInt64.size := by
    rw [← LinkEnd.length_said, said]
    exact few r
  obtain ⟨sure, tuned⟩ := after numbered
  refine ⟨Role.forall_of r ?_ ?_, Role.forall_of r ?_ ?_, Role.forall_of r ?_ ?_, sure, Role.forall_of r ?_ ?_,
    Role.forall_of r ?_ ?_, Role.forall_of r ?_ ?_⟩
  · rw [here, link, duet_move]
  · rw [aside, h.link, duet_move, there]
  · rw [here, said]
  · rw [aside, h.said, get_said_move, there, acceptedSince_self]
    exact (List.append_nil _).symm
  · rw [here, fetched, get_fetched_move, h.fetched]
  · rw [aside, h.fetched, get_fetched_move, nothing, List.append_nil]
  · exact wise
  · rw [duet_move, there]
    exact h.wise r.other
  · rw [get_fetched_move]
    exact listens
  · rw [duet_move, there, get_fetched_move, nothing, List.append_nil]
    exact h.listens r.other
  · rw [duet_move, ← link]
    exact tuned
  · rw [duet_move, there]
    exact h.tuned r.other

/-! ## Moves -/

/-- After a move a chronicle is kept, and heartbeats overtake no more than before. -/
def Leads (session : SessionId) (c : Chronicle) (x : Ends LinkEnd) (m : DuetMove) : Prop :=
  ∃ x', (c.move m).Kept session x' ∧ (c.Patient → (c.crossing x).Fair → ((c.move m).crossing x').Fair)

/-- **A peer does something on its own.** -/
theorem Kept.own (h : c.Kept session x) {action : PeerAction} {isOwn : action.isOwn = true}
    (few : (c.move (.own r action isOwn)).Few) : c.Leads session x (.own r action isOwn) := by
  have lives := (h.wise r).lives isOwn
  obtain ⟨e, link, fetched, goes⟩ := lives.speaks (x.get r) (h.link r)
  have here : (c.duet.move (.own r action isOwn)).peer r = (c.duet.peer r).perform action := by cases r <;> rfl
  have there : (c.duet.move (.own r action isOwn)).peer r.other = c.duet.peer r.other := by cases r <;> rfl
  have fetchesHere : c.duet.fetches r (.own r action isOwn) = (c.duet.peer r).fetches action := if_pos rfl
  have fetchesThere : c.duet.fetches r.other (.own r action isOwn) = [] := by cases r <;> rfl
  have crossing : (c.move (.own r action isOwn)).crossing (x.set r e) =
      (c.crossing x).speak r (((c.duet.peer r).perform action).voice e) := by
    rw [crossing_move there rfl, joined_move (by rw [here, lives.epoch]) rfl, here]
    rfl
  -- That the numbers last after the move is known only once the chronicle is seen to go on.
  have gone := fun fewer => h.sure.goes (v := ((c.duet.peer r).perform action).voice e)
    (by rw [voices_crossing]; exact goes) fewer
  have kept : (c.move (.own r action isOwn)).Kept session (x.set r e) := by
    refine h.change few there fetchesThere (link.trans (congrArg Peer.link here.symm)) (by rw [fetchesHere, fetched])
      (here ▸ lives.wise) ?_ (goes.sound ((x.set_get r).symm ▸ h.sure.sound)) goes.numbered
      (fun fewer => ⟨crossing ▸ (gone fewer).sure, ?_⟩)
    · rw [here, fetchesHere]
      exact lives.listens (h.listens r)
    · have bond := (gone fewer).bond
      have stage := (gone fewer).stage
      rw [record_crossing] at bond stage
      intro epoch isOpen
      rw [here, lives.epoch] at epoch
      have isOpen := LinkState.isOpen_of_stage stage isOpen
      rw [h.link r] at bond isOpen
      exact (congrArg LinkBond.connected bond).trans (h.tuned r epoch isOpen)
  refine ⟨x.set r e, kept, fun _ fair => ?_⟩
  rw [crossing]
  refine (gone ?_).fair fair
  have fewer := kept.few few r
  rwa [Ends.get_set_self] at fewer

/-- **A peer is told** of its connection, or that it is gone. -/
theorem Kept.told (h : c.Kept session x) {m : DuetMove} (action : PeerAction) (joined : Bool)
    (few : (c.move m).Few) (duet : c.duet.move m = c.duet.act r action)
    (greeted : (c.move m).greeted = c.greeted.set r false) (nothing : ∀ s, c.duet.fetches s m = [])
    (told : (c.duet.peer r).perform action = (c.duet.peer r).told c.duet.epoch joined) : c.Leads session x m := by
  have here : (c.duet.move m).peer r = (c.duet.peer r).told c.duet.epoch joined := by
    rw [duet, ← told]
    cases r <;> rfl
  have there : (c.duet.move m).peer r.other = c.duet.peer r.other := by
    rw [duet]
    cases r <;> rfl
  obtain ⟨sure, fair⟩ := h.sure.told r (c.duet.peer r).now joined
  have connected : (c.duet.move m).isConnected r = joined := by
    rw [Duet.isConnected, here, duet]
    cases joined
    · exact decide_eq_false nofun
    · exact decide_eq_true rfl
  have link : (((c.duet.peer r).voice (x.get r)).told (c.duet.peer r).now joined).record.link =
      ((c.duet.peer r).told c.duet.epoch joined).link := by
    cases joined
    · exact congrArg (fun l : Link => l.onDisconnected (c.duet.peer r).now) (h.link r)
    · exact congrArg (fun l : Link => l.onConnected (c.duet.peer r).now) (h.link r)
  have crossing : (c.move m).crossing
      (x.set r (((c.duet.peer r).voice (x.get r)).told (c.duet.peer r).now joined).record) =
      (c.crossing x).told r (c.duet.peer r).now joined := by
    have wires : (c.duet.move m).wires = c.duet.wires := by
      rw [duet]
      rfl
    rw [crossing_move there (by rw [duet]; rfl), here, connected, greeted, wires, Crossing.told, voices_crossing]
    rfl
  have sound : Exchange.Sound ((c.move m).crossing (x.set r
      (((c.duet.peer r).voice (x.get r)).told (c.duet.peer r).now joined).record)).records := crossing ▸ sure.sound
  have kept := h.change few there (nothing _) (link.trans (congrArg Peer.link here.symm))
    (by rw [nothing]; cases joined <;> exact (List.append_nil _).symm)
    (here ▸ ⟨(h.wise r).waiting, (h.wise r).selections⟩)
    (by rw [here, nothing, List.append_nil]; exact h.listens r) sound
    (by cases joined <;> exact List.prefix_refl _) (fun _ => ⟨crossing ▸ sure, ?_⟩)
  · exact ⟨_, kept, fun _ fair' => crossing ▸ fair fair'⟩
  · rw [here]
    intro epoch isOpen
    cases joined with
    | false => cases epoch
    | true =>
      have isOpen : ((x.get r).link.onConnected (c.duet.peer r).now).state ≠ .closed := isOpen
      rw [state_onConnected] at isOpen
      exact congrArg LinkBond.connected (bond_onConnected isOpen (c.duet.peer r).now)

/-- **The connection breaks and another one is opened.** -/
theorem Kept.reopen (h : c.Kept session x) (few : (c.move .reopen).Few) : c.Leads session x .reopen := by
  obtain ⟨sure, fair⟩ := h.sure.reopen
    ⟨(c.duet.move .reopen).isConnected .host, (c.duet.move .reopen).isConnected .guest⟩ (fun s joined => by
      have epoch : (c.duet.peer s).epoch = some (c.duet.epoch + 1) := of_decide_eq_true (by cases s <;> exact joined)
      rw [record_crossing, h.link s]
      exact h.tuned s (by rw [epoch]; rfl))
  have kept : (c.move .reopen).Kept session (x.set .host (x.get .host)) := by
    refine h.change few rfl rfl (h.link .host) (List.append_nil _).symm (h.wise .host) ?_ h.sure.sound
      (List.prefix_refl _) (fun _ => ⟨sure, ?_⟩)
    · show (c.duet.peer .host).Listens (c.fetched.get .host ++ [])
      rw [List.append_nil]
      exact h.listens .host
    · rw [h.link .host]
      exact h.tuned .host
  exact ⟨x, kept, fun _ => fair⟩

/-- **A peer puts what it has ready on the connection.** -/
theorem Kept.transmit (h : c.Kept session x) (few : (c.move (.transmit r)).Few) :
    c.Leads session x (.transmit r) := by
  obtain ⟨sure, fair⟩ := h.sure.transmit r (c.duet.peer r).now
  have here : (c.duet.move (.transmit r)).peer r = (c.duet.peer r).pollTransmit.2 := by
    rw [Duet.move_transmit]
    cases r <;> rfl
  have there : (c.duet.move (.transmit r)).peer r.other = c.duet.peer r.other := by
    rw [Duet.move_transmit]
    cases r <;> rfl
  have crossing : (c.move (.transmit r)).crossing (x.set r ((x.get r).perform [] (c.duet.peer r).now .drainOutbound)) =
      (c.crossing x).transmitted r (c.duet.peer r).now := by
    have frames : ((c.crossing x).lane r).voice.finals ++ ((c.crossing x).lane r).voice.record.link.drainOutbound.1 =
        (c.duet.peer r).pollTransmit.1 := by
      show ((c.crossing x).voices.get r).finals ++ ((c.crossing x).record r).link.drainOutbound.1 = _
      rw [voices_crossing, record_crossing, h.link r]
      rfl
    have wires : (c.duet.move (.transmit r)).wires =
        c.duet.wires.set r.other (((c.crossing x).lane r).transmitted (c.duet.peer r).now).wire := by
      unfold Lane.transmitted
      dsimp only
      rw [frames]
      show _ = c.duet.wires.set r.other (if (c.crossing x).joined.get r then _ else c.duet.wires.get r.other)
      rw [joined_crossing, Duet.move_transmit]
      dsimp only
      split
      · rfl
      · rw [Ends.set_get]
    have epoch : (c.duet.move (.transmit r)).epoch = c.duet.epoch := by
      rw [Duet.move_transmit]
      rfl
    rw [crossing_move there epoch, joined_move (by rw [here]; rfl) epoch, here, wires, Crossing.transmitted]
    have voice : (c.duet.peer r).pollTransmit.2.voice ((x.get r).perform [] (c.duet.peer r).now .drainOutbound) =
        (((c.crossing x).lane r).transmitted (c.duet.peer r).now).voice := by
      cases r <;> rfl
    rw [voice]
    rfl
  have sound : Exchange.Sound ((c.move (.transmit r)).crossing
      (x.set r ((x.get r).perform [] (c.duet.peer r).now .drainOutbound))).records := crossing ▸ sure.sound
  have link : ((x.get r).perform [] (c.duet.peer r).now .drainOutbound).link = (c.duet.peer r).pollTransmit.2.link :=
    congrArg (fun l : Link => l.drainOutbound.2) (h.link r)
  have kept := h.change few there rfl (link.trans (congrArg Peer.link here.symm)) (List.append_nil _).symm
    (here ▸ ⟨(h.wise r).waiting, (h.wise r).selections⟩) (by rw [here]; exact (List.append_nil _).symm ▸ h.listens r)
    sound (List.prefix_refl _) (fun _ => ⟨crossing ▸ sure, ?_⟩)
  · exact ⟨_, kept, fun patient fair' => crossing ▸ fair (h.patient patient) fair'⟩
  · rw [here, link]
    exact h.tuned r

/-- Nothing happens. -/
theorem Kept.idle (h : c.Kept session x) {m : DuetMove} (duet : c.duet.move m = c.duet)
    (greeted : (c.move m).greeted = c.greeted) (nothing : ∀ s, c.duet.fetches s m = []) : c.Leads session x m := by
  have crossing : (c.move m).crossing x = c.crossing x := by
    unfold Chronicle.crossing
    rw [duet_move, duet, greeted]
  refine ⟨x, ⟨fun s => ?_, fun s => ?_, fun s => ?_, crossing ▸ h.sure, fun s => ?_, fun s => ?_, fun s => ?_⟩,
    fun _ fair => crossing ▸ fair⟩
  · rw [duet_move, duet, h.link]
  · rw [get_said_move, duet, acceptedSince_self, h.said]
    exact (List.append_nil _).symm
  · rw [get_fetched_move, nothing, List.append_nil, h.fetched]
  · rw [duet_move, duet]
    exact h.wise s
  · rw [duet_move, duet, get_fetched_move, nothing, List.append_nil]
    exact h.listens s
  · rw [duet_move, duet]
    exact h.tuned s

/-- **A peer takes the next frame.** -/
theorem Kept.take (h : c.Kept session x) {f : Frame} {rest : List Frame} (first : c.duet.wires.get r = f :: rest)
    (connected : c.duet.isConnected r = true) (few : (c.move (.receive r)).Few) : c.Leads session x (.receive r) := by
  have epoch : (c.duet.peer r).epoch = some c.duet.epoch := of_decide_eq_true connected
  have duet := Duet.move_receive first connected
  have here : (c.duet.move (.receive r)).peer r = (c.duet.peer r).onFrame f (c.duet.peer r).now := by
    have taken : (c.duet.peer r).perform (.transport (.frame c.duet.epoch f)) =
        (c.duet.peer r).onFrame f (c.duet.peer r).now := if_pos epoch
    rw [duet, ← taken]
    cases r <;> rfl
  have there : (c.duet.move (.receive r)).peer r.other = c.duet.peer r.other := by
    rw [duet]
    cases r <;> rfl
  have starts := (h.wise r).starts f
  -- First the link takes the frame, and then the peer may start the session.
  obtain ⟨e, link, fetched, goes⟩ := starts.speaks ((x.get r).perform [f] (c.duet.peer r).now (.deliver 0))
    (by rw [Peer.link_took, ← h.link r]; rfl)
  obtain ⟨sure, fair⟩ := h.sure.take (r := r) first (by rw [joined_crossing, connected]) (c.duet.peer r).now
  have voice : ((c.crossing x).taken r f rest (c.duet.peer r).now).voices.get r =
      ((c.duet.peer r).took f).voice ((x.get r).perform [f] (c.duet.peer r).now (.deliver 0)) := by
    rw [Peer.voice_took]
    cases r <;> rfl
  have gone := fun fewer => sure.goes (r := r) (v := ((c.duet.peer r).onFrame f (c.duet.peer r).now).voice e)
    (by rw [voice]; exact goes) fewer
  have crossing : (c.move (.receive r)).crossing (x.set r e) =
      ((c.crossing x).taken r f rest (c.duet.peer r).now).speak r
        (((c.duet.peer r).onFrame f (c.duet.peer r).now).voice e) := by
    have unmoved : (c.duet.move (.receive r)).epoch = c.duet.epoch := by
      rw [duet]
      rfl
    have wires : (c.duet.move (.receive r)).wires = c.duet.wires.set r rest := by
      rw [duet]
      rfl
    have greets : c.duet.greets r = LineEnd.isMetBy (x.get r).link f (c.duet.peer r).now := by
      rw [Duet.greets, first, connected, h.link r]
      exact Bool.true_and _
    have greeted : (c.move (.receive r)).greeted =
        c.greeted.set r (((c.crossing x).lane r).met f (c.duet.peer r).now).greeted := by
      show c.greeted.set r (c.greeted.get r || c.duet.greets r) = _
      rw [greets]
      cases r <;> rfl
    rw [crossing_move there unmoved, joined_move (by rw [here, starts.epoch, Peer.epoch_took]) unmoved, here, wires,
      greeted]
    cases r <;> rfl
  have kept : (c.move (.receive r)).Kept session (x.set r e) := by
    refine h.change few there rfl (link.trans (congrArg Peer.link here.symm)) (fetched.trans (List.append_nil _).symm)
      (here ▸ starts.wise) ?_ (goes.sound ?_) goes.numbered (fun fewer => ⟨crossing ▸ (gone fewer).sure, ?_⟩)
    · rw [here]
      exact (List.append_nil (c.fetched.get r)).symm ▸ ((h.listens r).took f).advance starts
    · have records : ((c.crossing x).taken r f rest (c.duet.peer r).now).records =
          x.set r ((x.get r).perform [f] (c.duet.peer r).now (.deliver 0)) := by cases r <;> rfl
      exact records ▸ sure.sound
    · intro _ isOpen
      have joined : (c.crossing x).joined.get r = true := by rw [joined_crossing, connected]
      have isOpen := LinkState.isOpen_of_stage (gone fewer).stage isOpen
      exact (congrArg LinkBond.connected (gone fewer).bond).trans ((sure.ground r).connected joined isOpen)
  refine ⟨x.set r e, kept, fun patient before => ?_⟩
  rw [crossing]
  refine (gone ?_).fair (fair (h.patient patient) before)
  have fewer := kept.few few r
  rwa [Ends.get_set_self] at fewer

/-- **One move.** -/
theorem Kept.move (h : c.Kept session x) (m : DuetMove) (few : (c.move m).Few) : c.Leads session x m := by
  cases m with
  | own r action isOwn => exact h.own few
  | reopen => exact h.reopen few
  | connected r => exact h.told _ true few rfl rfl (fun _ => rfl) rfl
  | disconnected r reason =>
    cases epoch : (c.duet.peer r).epoch with
    | none =>
      refine h.idle (Duet.move_disconnected_none epoch reason) ?_ (fun _ => rfl)
      unfold Chronicle.move
      dsimp only
      rw [epoch]
      rfl
    | some old =>
      refine h.told (r := r) _ false few (Duet.move_disconnected epoch reason) ?_ (fun _ => rfl) (if_pos epoch)
      unfold Chronicle.move
      dsimp only
      rw [epoch]
      rfl
  | transmit r => exact h.transmit few
  | receive r =>
    have unmet : c.duet.greets r = false → (c.move (.receive r)).greeted = c.greeted := fun unmet => by
      show c.greeted.set r (c.greeted.get r || c.duet.greets r) = c.greeted
      rw [unmet, Bool.or_false, Ends.set_get]
    cases first : c.duet.wires.get r with
    | nil => exact h.idle (Duet.move_receive_none (Or.inl first)) (unmet (by rw [Duet.greets, first])) (fun _ => rfl)
    | cons f rest =>
      cases connected : c.duet.isConnected r with
      | true => exact h.take first connected few
      | false =>
        refine h.idle (Duet.move_receive_none (Or.inr connected)) (unmet ?_) (fun _ => rfl)
        rw [Duet.greets, first, connected]
        exact Bool.false_and _

theorem Few.after {moves : List DuetMove} (few : (c.after moves).Few) : c.Few := by
  induction moves generalizing c with
  | nil => exact few
  | cons move rest ih => exact (ih few).before

/-- **A whole run.** -/
theorem Kept.after (h : c.Kept session x) {moves : List DuetMove} (few : (c.after moves).Few) :
    ∃ x', (c.after moves).Kept session x' ∧
      (c.PatientRun moves → (c.crossing x).Fair → ((c.after moves).crossing x').Fair) := by
  induction moves generalizing c x with
  | nil => exact ⟨x, h, fun _ => id⟩
  | cons move rest ih =>
    obtain ⟨x', kept, fair⟩ := h.move move (Few.after (c := c.move move) few)
    obtain ⟨x'', kept', fair'⟩ := ih kept few
    exact ⟨x'', kept', fun patient before => fair' patient.2 (fair patient.1 before)⟩

end Chronicle

/-- The chronicle at the beginning of a session. -/
def Meeting.chronicle (w : Meeting) : Chronicle := ⟨w.start, ⟨[], []⟩, ⟨[], []⟩, ⟨false, false⟩⟩

/-- The links of two peers that are going to meet. -/
def Meeting.links (w : Meeting) (session : SessionId) : Ends LinkEnd :=
  Exchange.fresh session ⟨w.configs.host.link.linkConfig, w.configs.guest.link.linkConfig⟩
    ⟨w.configs.host.localId, w.configs.guest.localId⟩

/-- **At the beginning** nothing has been told. -/
theorem Meeting.kept {w : Meeting} {session : SessionId} (joins : ∀ r, (w.configs.get r).session = session)
    (room : ∀ r, (w.configs.get r).link.outboundCapacity < UInt64.size) :
    w.chronicle.Kept session (w.links session) ∧ (w.chronicle.crossing (w.links session)).Fair := by
  have sound : Exchange.Sound (w.links session) :=
    Exchange.sound_fresh (fun r => by cases r; exacts [room .host, room .guest])
  have apart : ∀ r, (w.chronicle.crossing (w.links session)).joined.get r ≠ true := by
    intro r joined
    rw [Chronicle.joined_crossing] at joined
    cases r <;> cases of_decide_eq_true joined
  have orderly : ∀ r, ((w.chronicle.crossing (w.links session)).voices.get r).Orderly := by
    intro r
    have silent : ∀ {P : SessionTime → Prop} (t : SessionTime), t ∈ [] → P t := fun _ mem => absurd mem List.not_mem_nil
    cases r
    · exact ⟨.nil, fun m mem => absurd mem List.not_mem_nil, silent, List.nil_subset _⟩
    · exact ⟨.nil, fun m mem => absurd mem List.not_mem_nil, silent, List.nil_subset _⟩
  constructor
  · refine ⟨fun r => ?_, fun r => ?_, fun r => ?_, ⟨sound, fun r => ?_⟩, fun r => ?_, fun r => ?_, fun r epoch => ?_⟩
    · have joins := joins r
      cases r <;> exact congrArg (fun s => Link.new _ s _) joins.symm
    · cases r <;> rfl
    · cases r <;> rfl
    · refine ⟨?_, ?_, ?_, orderly r, ?_, fun joined => absurd joined (apart r), ?_⟩
      · cases r
        · exact sound.coherent .host
        · exact sound.coherent .guest
      · cases r
        · exact sound.flow .host
        · exact sound.flow .guest
      · cases r <;> exact LinkEnd.signed_fresh session _ trivial
      · cases r <;> exact List.nil_subset _
      · have one : 0 + 1 < UInt64.size := by decide
        cases r <;> exact one
    · cases r <;> exact ⟨fun _ => rfl, Coordinator.stampedBy_of_none rfl⟩
    · cases r <;> exact fun _ => ⟨[], rfl, rfl⟩
    · cases r <;> cases epoch
  · intro r
    refine ⟨fun never => ?_, ?_, ?_, fun _ => ?_, fun _ joined => absurd joined (apart r),
      fun _ joined => absurd joined (apart r)⟩
    · cases r <;> cases never
    · cases r <;> exact SessionTime.zero_le _
    · cases r <;> exact fun m mem => absurd mem List.not_mem_nil
    · cases r <;> trivial

end Tandem
