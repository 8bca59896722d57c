import Tandem.Proofs.Link.Lanes
/-!
# The two lanes of a connection

A *crossing* has both directions of a connection: two voices, and what is on the way to each end.  What an end does
moves one lane forward as a sender and the other one as a receiver.  `Crossing.Sure` is what holds at any time,
whatever goes over the connection; on top of that a lane stays `Fair` as long as both are patient.

Each thing that can happen has one lemma here.  Owners do things in between that a link knows nothing of, so
`Sure.goes` takes a whole sequence of acts.
-/

namespace Tandem

open Link

namespace Exchange

variable {x : Ends LinkEnd} {r : Role} {e : LinkEnd}

/-- The end that has changed does one more thing. -/
theorem Sound.again (h : Sound (x.set r e)) {arriving : List Frame} {now : SessionTime} {action : LinkAction}
    (arrives : ∀ f ∈ arriving, (x.get r.other).Genuine f)
    (honest : ∀ participant resumeFrom, action ≠ .send (.hello participant resumeFrom)) :
    Sound (x.set r (e.perform arriving now action)) := by
  have sound : Sound ((x.set r e).set r (((x.set r e).get r).perform arriving now action)) := by
    refine h.perform ?_ (fun participant resumeFrom same => absurd same (honest participant resumeFrom))
    rwa [Ends.get_set_other]
  rwa [Ends.get_set_self, Ends.set_set] at sound

end Exchange

namespace Voice

variable {v v' : Voice}

/-- An exchange stays sound. -/
theorem Goes.sound {x : Ends LinkEnd} {r : Role} (goes : v.Goes v') (h : Exchange.Sound (x.set r v.record)) :
    Exchange.Sound (x.set r v'.record) :=
  goes.record (P := fun e => Exchange.Sound (x.set r e))
    (fun _ _ _ honest before => before.again (fun _ mem => absurd mem List.not_mem_nil) honest) h

/-- Frames stay readable. -/
theorem Goes.signed {session : SessionId} (goes : v.Goes v')
    (h : v.record.Signed session (fun _ => True) (fun _ => True)) :
    v'.record.Signed session (fun _ => True) (fun _ => True) :=
  goes.record (P := fun e => e.Signed session (fun _ => True) (fun _ => True))
    (fun e now action _ before => before.move (fun _ _ _ => trivial) (fun _ _ => trivial)
      (e.moves_perform [] now action)) h

/-- What has been accepted stays. -/
theorem Goes.numbered (goes : v.Goes v') : v.record.numbered <+: v'.record.numbered :=
  goes.record (P := fun e => v.record.numbered <+: e.numbered)
    (fun e now action _ before => before.trans (e.numbered_perform [] now action)) (List.prefix_refl _)

/-- What is on the way is as it was, and what is said as well. -/
theorem Orderly.keep (h : v.Orderly) (said : v'.record.said = v.record.said) (horizon : v'.horizon = v.horizon)
    (beats : Frame.beats v'.record.drained ++ v'.beats ⊆ Frame.beats v.record.drained ++ v.beats)
    (finals : v'.finals ⊆ v'.record.drained) : v'.Orderly where
  timely := said ▸ h.timely
  known := by
    rw [said, horizon]
    exact h.known
  beats t mem := horizon ▸ h.beats t (beats mem)
  finals := finals

/-- The voice of an end that is told of its connection, or that it is gone. -/
def told (v : Voice) (now : SessionTime) (joined : Bool) : Voice :=
  { v with record := v.record.perform [] now (if joined then .connected else .disconnected) }

end Voice

/-- Both directions of a connection. -/
structure Crossing where
  voices : Ends Voice
  /-- Whether an end has been told of the connection that there is. -/
  joined : Ends Bool
  /-- Whether it has taken a hello of the other end on that connection. -/
  greeted : Ends Bool
  /-- The frames on the way to each end, in the order of sending. -/
  wires : Ends (List Frame)

namespace Crossing

/-- The link at an end, with what has gone through it. -/
def record (k : Crossing) (r : Role) : LinkEnd := (k.voices.get r).record

/-- Both links. -/
def records (k : Crossing) : Ends LinkEnd := ⟨k.record .host, k.record .guest⟩

/-- The lane on which an end sends. -/
def lane (k : Crossing) (r : Role) : Lane :=
  ⟨k.voices.get r, k.joined.get r, k.greeted.get r, k.wires.get r.other, k.record r.other⟩

/-- The voice of an end changes. -/
def speak (k : Crossing) (r : Role) (v : Voice) : Crossing := { k with voices := k.voices.set r v }

/-- What holds of a crossing, whatever is on the way. -/
structure Sure (session : SessionId) (k : Crossing) : Prop where
  sound : Exchange.Sound k.records
  ground : ∀ r, (k.lane r).Grounded session

/-- Heartbeats overtake on neither lane. -/
def Fair (k : Crossing) : Prop := ∀ r, (k.lane r).Fair

/-- No heartbeat is ready to be sent at an end that has not taken a hello. -/
def Patient (k : Crossing) : Prop := ∀ r, (k.lane r).Patient

section access

variable (k : Crossing) (r : Role) (v : Voice)

@[simp] theorem get_records : k.records.get r = k.record r := by cases r <;> rfl

@[simp] theorem records_speak : (k.speak r v).records = k.records.set r v.record := by cases r <;> rfl

@[simp] theorem record_speak : (k.speak r v).record r = v.record := by cases r <;> rfl

@[simp] theorem record_speak_other : (k.speak r v).record r.other = k.record r.other := by cases r <;> rfl

@[simp] theorem lane_speak : (k.speak r v).lane r = { k.lane r with voice := v } := by cases r <;> rfl

@[simp] theorem lane_speak_other : (k.speak r v).lane r.other = { k.lane r.other with ear := v.record } := by
  cases r <;> rfl

end access

variable {session : SessionId} {k : Crossing} {r : Role} {v : Voice}

/-! ## What is sure -/

/-- An end changes.  Of the other lane only the receiver is concerned. -/
theorem Sure.set (h : k.Sure session) (sound : Exchange.Sound (k.records.set r v.record))
    (readable : v.record.Signed session (fun _ => True) (fun _ => True)) (orderly : v.Orderly)
    (onWay : k.wires.get r.other ⊆ v.record.drained)
    (connected : k.joined.get r = true → v.record.link.state ≠ .closed → v.record.link.bond.connected = true)
    (fewer : v.record.numbered.length + 1 < UInt64.size) : (k.speak r v).Sure session := by
  have coherent := sound.coherent r
  have sends := sound.flow r
  have receives := sound.flow r.other
  rw [Role.other_other] at receives
  rw [Ends.get_set_self] at coherent sends receives
  rw [Ends.get_set_other, get_records] at sends receives
  refine ⟨k.records_speak r v ▸ sound, Role.forall_of r ?_ ?_⟩
  · rw [lane_speak]
    exact ⟨coherent, sends, readable, orderly, onWay, connected, fewer⟩
  · -- The other lane has the same sender; only the flow to its receiver has to be seen again.
    have ground := h.ground r.other
    rw [lane_speak_other]
    exact ⟨ground.coherent, receives, ground.readable, ground.orderly, ground.onWay, ground.connected, ground.fewer⟩

/-- What is on the way changes, and what the ends have been told. -/
theorem Sure.rewire (h : k.Sure session) {joined greeted : Ends Bool} {wires : Ends (List Frame)}
    (onWay : ∀ r, wires.get r.other ⊆ (k.record r).drained)
    (connected : ∀ r, joined.get r = true → (k.record r).link.state ≠ .closed →
      (k.record r).link.bond.connected = true) : (Crossing.mk k.voices joined greeted wires).Sure session := by
  refine ⟨h.sound, fun r => ?_⟩
  have ground := h.ground r
  exact ⟨ground.coherent, ground.flow, ground.readable, ground.orderly, onWay r, connected r, ground.fewer⟩

/-- An end that takes nothing leaves the lane on which it receives as it was. -/
theorem Fair.listen (h : k.Fair) (through : v.record.through = (k.record r).through)
    (peerTime : v.record.link.pulse.peerTime = (k.record r).link.pulse.peerTime)
    (stage : (k.record r).link.state.stage ≤ v.record.link.state.stage) :
    ({ k.lane r.other with ear := v.record } : Lane).Fair := by
  have here : (k.lane r.other).ear = k.record r := by cases r <;> rfl
  rw [← here] at through peerTime stage
  exact (h r.other).listen through peerTime stage

/-! ## What an owner does on its own -/

/-- What has become of a crossing when the owner of an end has done something. -/
structure Gone (session : SessionId) (k : Crossing) (r : Role) (v : Voice) : Prop where
  sure : (k.speak r v).Sure session
  bond : v.record.link.bond = (k.record r).link.bond
  stage : (k.record r).link.state.stage ≤ v.record.link.state.stage
  fair : k.Fair → (k.speak r v).Fair

/-- **An owner does one thing.** -/
theorem Sure.act (h : k.Sure session) (acts : (k.voices.get r).Acts v)
    (fewer : v.record.numbered.length + 1 < UInt64.size) : Gone session k r v := by
  have goes : (k.voices.get r).Goes v := .single acts
  have ground := h.ground r
  have changes := Voice.changes_of_acts acts ground.coherent ground.fewer
  have before : Exchange.Sound (k.records.set r (k.record r)) := by
    rw [← get_records, Ends.set_get]
    exact h.sound
  have sure : (k.speak r v).Sure session := by
    refine h.set (goes.sound before) (goes.signed ground.readable) (ground.orderly.change changes)
      (fun f mem => changes.drained.1 (ground.onWay mem)) (fun joined isOpen => ?_) fewer
    rw [changes.bond]
    exact ground.connected joined (LinkState.isOpen_of_stage changes.stage isOpen)
  -- The act moves the lane on which the end sends; on the other one the end has only listened.
  refine ⟨sure, changes.bond, changes.stage, fun fair => Role.forall_of r ?_ ?_⟩
  · have after := sure.ground r
    rw [lane_speak] at after ⊢
    exact (fair r).change ground changes after
  · rw [lane_speak_other]
    exact fair.listen changes.through changes.peerTime changes.stage

/-- **An owner does one thing after the other.** -/
theorem Sure.goes (h : k.Sure session) (goes : (k.voices.get r).Goes v)
    (fewer : v.record.numbered.length + 1 < UInt64.size) : Gone session k r v := by
  induction goes with
  | refl =>
    have same : k.speak r (k.voices.get r) = k := by cases r <;> rfl
    exact ⟨same.symm ▸ h, rfl, Nat.le_refl _, fun fair => same.symm ▸ fair⟩
  | @tail b c _ acts ih =>
    -- Messages are never taken back, so the numbers lasted before the last act as well.
    have fewerBefore : b.record.numbered.length + 1 < UInt64.size :=
      Nat.lt_of_le_of_lt (Nat.succ_le_succ (Voice.Goes.numbered (.single acts)).length_le) fewer
    have there : (k.speak r b).voices.get r = b := by cases r <;> rfl
    have twice : (k.speak r b).speak r c = k.speak r c := by cases r <;> rfl
    have first := ih fewerBefore
    have last := first.sure.act (there.symm ▸ acts) fewer
    have bond := last.bond
    have stage := last.stage
    rw [record_speak] at bond stage
    exact ⟨twice ▸ last.sure, bond.trans first.bond, Nat.le_trans first.stage stage,
      fun fair => twice ▸ last.fair (first.fair fair)⟩

/-! ## What the connection does -/

/-- What an end may have become that has said nothing: its link has done something else. -/
structure Turns (v v' : Voice) (arriving : List Frame) (now : SessionTime) (action : LinkAction) : Prop where
  record : v'.record = v.record.perform arriving now action
  unsaid : ∀ m, action ≠ .send m
  numbered : v'.record.numbered = v.record.numbered
  horizon : v'.horizon = v.horizon
  beats : Frame.beats v'.record.drained ++ v'.beats ⊆ Frame.beats v.record.drained ++ v.beats
  finals : v'.finals ⊆ v'.record.drained

theorem Turns.said {arriving : List Frame} {now : SessionTime} {action : LinkAction} {v' : Voice}
    (h : Turns v v' arriving now action) : v'.record.said = v.record.said := by
  rw [LinkEnd.said, LinkEnd.said, h.numbered]

/-- The link of an end does something else than saying, and the wires and what the ends have been told may change. -/
theorem Sure.turn (h : k.Sure session) {arriving : List Frame} {now : SessionTime} {action : LinkAction}
    (turns : Turns (k.voices.get r) v arriving now action) (arrives : arriving ⊆ (k.record r.other).drained)
    {joined greeted : Ends Bool} {wires : Ends (List Frame)}
    (onWay : ∀ s, wires.get s.other ⊆ ((k.speak r v).record s).drained)
    (connected : ∀ s, joined.get s = true → ((k.speak r v).record s).link.state ≠ .closed →
      ((k.speak r v).record s).link.bond.connected = true) :
    (Crossing.mk (k.voices.set r v) joined greeted wires).Sure session := by
  have ground := h.ground r
  have sound : Exchange.Sound (k.records.set r v.record) := by
    have genuine : ∀ f ∈ arriving, (k.records.get r.other).Genuine f := fun f mem =>
      (h.sound.coherent r.other).drained f (by rw [get_records]; exact arrives mem)
    have sound : Exchange.Sound (k.records.set r ((k.records.get r).perform arriving now action)) :=
      h.sound.perform genuine fun participant resumeFrom same =>
        absurd same (turns.unsaid (.hello participant resumeFrom))
    rw [get_records] at sound
    rw [turns.record]
    exact sound
  have readable : v.record.Signed session (fun _ => True) (fun _ => True) := by
    rw [turns.record]
    exact ground.readable.move (fun _ _ _ => trivial) (fun _ _ => trivial)
      ((k.voices.get r).record.moves_perform arriving now action)
  -- Nobody is told of a connection while the end changes.
  have apart : (Crossing.mk k.voices ⟨false, false⟩ greeted ⟨[], []⟩).Sure session := by
    refine h.rewire (fun s => ?_) (fun s never => ?_)
    · cases s <;> exact List.nil_subset _
    · cases s <;> cases never
  have changed := apart.set (r := r) sound readable
    (ground.orderly.keep turns.said turns.horizon turns.beats turns.finals)
    (by cases r <;> exact List.nil_subset _) (fun never => by cases r <;> cases never)
    (turns.numbered ▸ ground.fewer)
  exact changed.rewire onWay connected

theorem pulse_told (v : Voice) (now : SessionTime) (joined : Bool) : (v.told now joined).record.link.pulse =
    v.record.link.pulse ∨ (v.told now joined).record.link.pulse = ⟨v.record.link.pulse.peerTime, []⟩ := by
  cases joined with
  | true => exact pulse_onConnected v.record.link now
  | false => exact pulse_onDisconnected v.record.link now

theorem turns_told (ordered : v.Orderly) (now : SessionTime) (joined : Bool) :
    Turns v (v.told now joined) [] now (if joined then .connected else .disconnected) := by
  have finals : v.finals ⊆ v.record.drained := ordered.finals
  have beats : (v.told now joined).beats ⊆ v.beats := by
    intro t mem
    refine (List.mem_append.mp mem).elim (List.mem_append_left _) fun queued => ?_
    rcases pulse_told v now joined with same | none
    · rw [same] at queued
      exact List.mem_append_right _ queued
    · rw [none] at queued
      exact absurd queued List.not_mem_nil
  have drained : (v.told now joined).record.drained = v.record.drained := by cases joined <;> rfl
  refine ⟨rfl, fun m same => ?_, ?_, rfl, ?_, ?_⟩
  · cases joined <;> cases same
  · cases joined <;> rfl
  · rw [drained]
    exact fun t mem => (List.mem_append.mp mem).elim (List.mem_append_left _) fun waiting =>
      List.mem_append_right _ (beats waiting)
  · rw [drained]
    exact finals

/-- The end is told of its connection, or that it is gone. -/
def told (k : Crossing) (r : Role) (now : SessionTime) (joined : Bool) : Crossing :=
  ⟨k.voices.set r ((k.voices.get r).told now joined), k.joined.set r joined, k.greeted.set r false, k.wires⟩

/-- **An end is told** of its connection, or that it is gone. -/
theorem Sure.told (h : k.Sure session) (r : Role) (now : SessionTime) (joined : Bool) :
    (k.told r now joined).Sure session ∧ (k.Fair → (k.told r now joined).Fair) := by
  have ground := h.ground r
  have turns : Turns (k.voices.get r) ((k.voices.get r).told now joined) [] now _ :=
    turns_told ground.orderly now joined
  constructor
  · refine h.turn turns (List.nil_subset _) (Role.forall_of r ?_ ?_) (Role.forall_of r ?_ ?_)
    · rw [record_speak]
      cases joined <;> exact ground.onWay
    · rw [record_speak_other]
      exact (h.ground r.other).onWay
    · rw [record_speak, Ends.get_set_self]
      rintro rfl isOpen
      have isOpen : ((k.record r).link.onConnected now).state ≠ .closed := isOpen
      rw [state_onConnected] at isOpen
      exact congrArg LinkBond.connected (bond_onConnected isOpen now)
    · rw [record_speak_other, Ends.get_set_other]
      exact (h.ground r.other).connected
  · intro fair
    refine Role.forall_of r ?_ ?_
    · have lane : (k.told r now joined).lane r =
          ⟨(k.voices.get r).told now joined, joined, false, (k.lane r).wire, (k.lane r).ear⟩ := by cases r <;> rfl
      rw [lane]
      exact (fair r).unmet turns.said (Std.le_refl _) (Or.inl rfl)
    · have lane : (k.told r now joined).lane r.other =
          { k.lane r.other with ear := ((k.voices.get r).told now joined).record } := by cases r <;> rfl
      rw [lane]
      exact fair.listen (congrArg UInt64.toNat ((k.record r).through_perform now _))
        ((k.record r).peerTime_perform now _) ((k.record r).stage_perform [] now _)

/-- The connection breaks and another one is opened, of which the ends may know. -/
def reopened (k : Crossing) (joined : Ends Bool) : Crossing := ⟨k.voices, joined, ⟨false, false⟩, ⟨[], []⟩⟩

/-- **The connection breaks and another one is opened.** -/
theorem Sure.reopen (h : k.Sure session) (joined : Ends Bool) (connected : ∀ r, joined.get r = true →
    (k.record r).link.state ≠ .closed → (k.record r).link.bond.connected = true) :
    (k.reopened joined).Sure session ∧ (k.Fair → (k.reopened joined).Fair) := by
  refine ⟨h.rewire (fun s => ?_) connected, fun fair s => ?_⟩
  · cases s <;> exact List.nil_subset _
  · have lane : (k.reopened joined).lane s = ⟨k.voices.get s, joined.get s, false, [], (k.lane s).ear⟩ := by
      cases s <;> rfl
    rw [lane]
    exact (fair s).unmet rfl (Std.le_refl _) (Or.inr rfl)

/-- An end puts what it has ready on the connection. -/
def transmitted (k : Crossing) (r : Role) (now : SessionTime) : Crossing :=
  ⟨k.voices.set r ((k.lane r).transmitted now).voice, k.joined, k.greeted,
    k.wires.set r.other ((k.lane r).transmitted now).wire⟩

/-- **An end puts what it has ready on the connection.** -/
theorem Sure.transmit (h : k.Sure session) (r : Role) (now : SessionTime) :
    (k.transmitted r now).Sure session ∧ (k.Patient → k.Fair → (k.transmitted r now).Fair) := by
  have ground := h.ground r
  have turns : Turns (k.voices.get r) ((k.lane r).transmitted now).voice [] now .drainOutbound := by
    refine ⟨rfl, (fun _ same => by cases same), rfl, rfl, ?_, List.nil_subset _⟩
    intro t mem
    have mem : t ∈ Frame.beats ((k.record r).drained ++ (k.record r).link.drainOutbound.1) ++ [] := mem
    rw [List.append_nil, Frame.beats_append, (pulse_drainOutbound (k.record r).link).2] at mem
    exact (List.mem_append.mp mem).elim (List.mem_append_left _) fun waiting =>
      List.mem_append_right _ (List.mem_append_right _ waiting)
  constructor
  · refine h.turn turns (List.nil_subset _) (Role.forall_of r ?_ ?_) (Role.forall_of r ?_ ?_)
    · rw [record_speak, Ends.get_set_self]
      intro f mem
      show f ∈ (k.record r).drained ++ (k.record r).link.drainOutbound.1
      unfold Lane.transmitted at mem
      dsimp only at mem
      split at mem
      · rcases List.mem_append.mp mem with old | new
        · exact List.mem_append_left _ (ground.onWay old)
        · exact (List.mem_append.mp new).elim (fun last => List.mem_append_left _ (ground.orderly.finals last))
            (List.mem_append_right _)
      · exact List.mem_append_left _ (ground.onWay mem)
    · rw [record_speak_other, Ends.get_set_other]
      exact (h.ground r.other).onWay
    · rw [record_speak]
      exact ground.connected
    · rw [record_speak_other]
      exact (h.ground r.other).connected
  · intro patient fair
    refine Role.forall_of r ?_ ?_
    · have lane : (k.transmitted r now).lane r = (k.lane r).transmitted now := by cases r <;> rfl
      rw [lane]
      exact (fair r).transmit (patient r) now
    · have lane : (k.transmitted r now).lane r.other =
          { k.lane r.other with ear := ((k.lane r).transmitted now).voice.record } := by cases r <;> rfl
      rw [lane]
      exact fair.listen rfl rfl (Nat.le_refl _)

/-- An end takes a frame, after which others are on the way to it. -/
def taken (k : Crossing) (r : Role) (f : Frame) (rest : List Frame) (now : SessionTime) : Crossing :=
  ⟨k.voices.set r ((k.lane r).met f now).voice, k.joined, k.greeted.set r ((k.lane r).met f now).greeted,
    k.wires.set r rest⟩

/-- **An end takes the next frame** on its connection. -/
theorem Sure.take (h : k.Sure session) {f : Frame} {rest : List Frame} (first : k.wires.get r = f :: rest)
    (joined : k.joined.get r = true) (now : SessionTime) :
    (k.taken r f rest now).Sure session ∧ (k.Patient → k.Fair → (k.taken r f rest now).Fair) := by
  have ground := h.ground r
  have back := h.ground r.other
  have wire : (k.lane r.other).wire = f :: rest := by rw [← first]; cases r <;> rfl
  have ear : (k.lane r.other).ear = k.record r := by cases r <;> rfl
  have drained : f ∈ (k.record r.other).drained := back.onWay (wire ▸ List.mem_cons_self)
  have silent : ∀ g ∈ (k.record r).link.stream.retained, g.beat? = none := ground.coherent.silent
  have turns : Turns (k.voices.get r) ((k.lane r).met f now).voice [f] now (.deliver 0) := by
    refine ⟨rfl, (fun _ same => by cases same), rfl, rfl, ?_, ground.orderly.finals⟩
    -- Taking a frame makes no heartbeat ready to be sent.
    have same : ((k.record r).link.onFrame f now).1.pulse.beats = (k.record r).link.pulse.beats := by
      rcases pulse_onFrame silent f now with same | ⟨t, -, more⟩
      · rw [same]
      · rw [more]
    intro t mem
    have mem : t ∈ Frame.beats (k.record r).drained ++
        (Frame.beats (k.voices.get r).finals ++ ((k.record r).link.onFrame f now).1.pulse.beats) := mem
    rwa [same] at mem
  have sure : (k.taken r f rest now).Sure session := by
    refine h.turn turns (List.cons_subset.mpr ⟨drained, List.nil_subset _⟩) (Role.forall_of r ?_ ?_)
      (Role.forall_of r ?_ ?_)
    · rw [record_speak, Ends.get_set_other]
      exact ground.onWay
    · rw [record_speak_other, Role.other_other, Ends.get_set_self]
      exact fun g mem => back.onWay (wire ▸ List.mem_cons_of_mem f mem)
    · rw [record_speak]
      intro joined isOpen
      obtain ⟨-, ⟨m, carried⟩, -⟩ := back.readable.drained f drained
      refine ((k.record r).link.handles_onFrame f now).counts carried |>.1.trans (ground.connected joined ?_)
      exact LinkState.isOpen_of_stage (stage_onFrame (k.record r).link f now) isOpen
    · rw [record_speak_other]
      exact back.connected
  refine ⟨sure, fun patient fair => Role.forall_of r ?_ ?_⟩
  · have lane : (k.taken r f rest now).lane r = (k.lane r).met f now := by cases r <;> rfl
    have after := sure.ground r
    rw [lane] at after ⊢
    exact (fair r).meet ground (patient r) after joined
  · have lane : (k.taken r f rest now).lane r.other =
        { k.lane r.other with wire := rest, ear := (k.lane r.other).ear.perform [f] now (.deliver 0) } := by
      cases r <;> rfl
    rw [lane]
    refine (fair r.other).arrive back ⟨?_, ?_⟩ wire now
    · rw [ear]
      exact ground.readable.joined
    · rw [ear]
      exact silent

end Crossing

end Tandem
