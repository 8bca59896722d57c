import Tandem.Proofs.Matching.Entries
import Tandem.Proofs.Reconcile.Messages
/-!
# A message that comes again

A side may take any message again that it has applied before (`ListenerMove.replay`), whatever it has done and taken in
the meantime.  A forwarded input that comes again is known by its stamp.  A delta is not: it is applied once more, and
what keeps it from doing anything are the stamps of the fields alone.  Each change of it is `Spent`, and remains so
(`Listener.Hears`): what the script writes is stamped by the script, what the participant of the side enters is stamped
above all that the side has seen, and the exchanges of the other side have rising stamps.

So no field ever changes.  But a change counts if the field still carries its stamp and its value does not equal itself,
which is so for what is not a number.  Then the task gets a new version, a last participant, and a note in the journal
(`Setting.replay_iff`, `Setting.not_replay_staleTune`).
-/

namespace Tandem

/-! ## Sides that hear messages again -/

namespace Side

/-- Expires the pending matching round if its deadline has come. -/
def expire (a : Side) (now : SessionTime) : Side := { a with battery := (a.battery.expireRounds now).1 }

/-- Whether a side drops a message, as the task runs in the local network mode. -/
def drops (a : Side) (sender : ParticipantId) (m : SyncMessage) : Bool :=
  match (a.reconciler.onRemoteMessage a.battery sender m).2.2 with
  | .localTask _ => true
  | _ => false

end Side

/-- A side and the messages of the other one that it has applied. -/
structure Listener where
  side : Side
  heard : List SyncMessage

namespace Listener

/-- Takes the next message of the other side, if there is one. -/
def takeNext (l : Listener) (sender : ParticipantId) (messages : List SyncMessage) : Listener :=
  match messages[l.side.taken]? with
  | none => l
  | some m =>
    { side := { l.side.take sender m with taken := l.side.taken + 1 }
      heard := if l.side.drops sender m then l.heard else l.heard ++ [m] }

/-- Takes a message again that has been applied. -/
def takeAgain (l : Listener) (sender : ParticipantId) (n : Nat) : Listener :=
  match l.heard[n]? with
  | none => l
  | some m => { l with side := l.side.take sender m }

end Listener

/-- What can happen in a run in which messages are replayed. -/
inductive ListenerMove where
  /-- A side runs the next command of the script. -/
  | play (side : Role)
  /-- A side looks whether the pending matching round has run out. -/
  | expire (side : Role) (now : SessionTime)
  /-- The participant of a side does something, at a session time that the side's clock shows. -/
  | input (side : Role) (captured now : SessionTime) (payload : InputPayload)
  /-- A side takes the next message of the other one. -/
  | deliver (side : Role)
  /-- A side takes a message again that it has applied before. -/
  | replay (side : Role) (n : Nat)

namespace Setting

variable (w : Setting)

/-- One move of a run in which messages are replayed. -/
def listen (x : Ends Listener) : ListenerMove → Ends Listener
  | .play r => x.set r ⟨(x.get r).side.playNext w.script, (x.get r).heard⟩
  | .expire r now => x.set r ⟨(x.get r).side.expire now, (x.get r).heard⟩
  | .input r captured now payload =>
    x.set r ⟨(x.get r).side.input (.captured (w.participants.get r) captured payload) now, (x.get r).heard⟩
  | .deliver r => x.set r ((x.get r).takeNext (w.participants.get r.other) (x.get r.other).side.sent)
  | .replay r n => x.set r ((x.get r).takeAgain (w.participants.get r.other) n)

/-- The two sides after a run in which messages are replayed. -/
def listened (moves : List ListenerMove) : Ends Listener :=
  moves.foldl w.listen ⟨⟨w.start.host, []⟩, ⟨w.start.guest, []⟩⟩

end Setting

/-! ## What is dropped -/

theorem Side.drops_of_not_isShared {a : Side} {m : SyncMessage} {t : TaskId} (sender : ParticipantId)
    (task : m.task? = some t) (unshared : (a.battery.store.read t).isShared = false) : a.drops sender m = true := by
  have dropped := (a.reconciler.onRemoteMessage_of_not_isShared sender task unshared).2.2
  unfold Side.drops
  rw [dropped]

/-! ## What has been told -/

/-- The exchange is about an input of a participant, to whatever task. -/
structure Exchange.Entered (p : ParticipantId) (x : Exchange) : Prop where
  origin : x.event.origin = p
  writer : x.stamp.writer = .participant p
  writes : EntryWrites x.stamp x.changes

/-- The exchanges of a participant in order, to whatever task. -/
structure EntryLog (p : ParticipantId) (xs : List Exchange) : Prop where
  entered : ∀ x ∈ xs, x.Entered p
  rising : xs.Pairwise (fun x y => x.stamp < y.stamp)

theorem EntryLog.nil (p : ParticipantId) : EntryLog p [] := ⟨fun _ mem => absurd mem List.not_mem_nil, .nil⟩

theorem EntryLog.concat {p : ParticipantId} {xs : List Exchange} {y : Exchange} (h : EntryLog p xs) (new : y.Entered p)
    (above : ∀ x ∈ xs, x.stamp < y.stamp) : EntryLog p (xs ++ [y]) where
  entered x mem := by
    rcases List.mem_append.mp mem with before | last
    · exact h.entered x before
    · exact List.mem_singleton.mp last ▸ new
  rising := List.pairwise_append.mpr
    ⟨h.rising, List.pairwise_singleton _ _, fun x mem z last => List.mem_singleton.mp last ▸ above x mem⟩

theorem EntryLog.lt {p : ParticipantId} {xs : List Exchange} (h : EntryLog p xs) {i j : Nat} {x y : Exchange}
    (before : i < j) (first : xs[i]? = some x) (second : xs[j]? = some y) : x.stamp < y.stamp := by
  obtain ⟨hi, rfl⟩ := List.getElem?_eq_some_iff.mp first
  obtain ⟨hj, rfl⟩ := List.getElem?_eq_some_iff.mp second
  exact List.pairwise_iff_getElem.mp h.rising i j hi hj before

/-- What a side has told when it has sent the exchanges `mine`. -/
structure Side.Tells (p : ParticipantId) (mine : List Exchange) (a : Side) : Prop where
  speaks : a.Speaks p mine
  log : EntryLog p mine

namespace Side.Tells

variable {p : ParticipantId} {mine : List Exchange} {a : Side}

/-- An input of the participant is told in one exchange, if at all. -/
theorem input (h : a.Tells p mine) (selected : a.battery.matching.SelectedUnder Stamp.ByParticipant)
    (room : a.reconciler.clock.HasRoom) {e : InputEvent} (origin : e.origin = p) (now : SessionTime) :
    ∃ more, (a.input e now).Tells p (mine ++ more) := by
  have own := h.speaks.writer_issue now
  obtain ⟨changes, writes, -, part⟩ :=
    Battery.exists_entryWrites selected (Stamp.byParticipant_of own) e (.localInput e.origin)
  obtain ⟨more, speaks, none | ⟨outcome, applied, some⟩⟩ := h.speaks.input room e now
  · subst none
    exact ⟨[], speaks, (List.append_nil mine).symm ▸ h.log⟩
  · subst some
    have entered : Exchange.Entered p ⟨e, (a.reconciler.clock.issue now).1, outcome.applied⟩ :=
      ⟨origin, own, writes.sublist (part outcome applied)⟩
    exact ⟨_, speaks, h.log.concat entered fun y mem => h.speaks.lt_issue room now mem⟩

end Side.Tells

/-! ## What has been heard -/

/-- A delta of the other side that has been applied and has nothing more to do. -/
structure Listener.Settled (theirs : List Exchange) (l : Listener) (t : TaskId) (changes : List FieldChange) :
    Prop where
  exchange : ∃ i x, 2 * i + 1 < l.side.taken ∧ theirs[i]? = some x ∧ x.changes = changes
  spent : ∀ c ∈ changes, Spent (l.side.battery.cell? t c.key) c
  seen : ∀ c ∈ changes, c.stamp.moment ≤ l.side.reconciler.clock.moment

/-- What a side knows of what it has heard, when the participant `q` of the other side has told `theirs`. -/
structure Listener.Hears (q : ParticipantId) (theirs : List Exchange) (l : Listener) : Prop where
  selected : l.side.battery.matching.SelectedUnder Stamp.ByParticipant
  inputs : ∀ e stamp, .forward e stamp ∈ l.heard → l.side.reconciler.isRepeated q stamp = true
  deltas : ∀ t changes, .delta t changes ∈ l.heard → l.Settled theirs t changes

namespace Listener

variable {q : ParticipantId} {theirs : List Exchange} {l : Listener} {t : TaskId} {changes : List FieldChange}

namespace Settled

theorem exists_entered (h : l.Settled theirs t changes) (log : EntryLog q theirs) :
    ∃ i x, 2 * i + 1 < l.side.taken ∧ theirs[i]? = some x ∧ EntryWrites x.stamp changes := by
  obtain ⟨i, x, before, found, rfl⟩ := h.exchange
  exact ⟨i, x, before, found, (log.entered x (List.mem_of_getElem? found)).writes⟩

/-- The script writes under other stamps. -/
theorem spent_script (h : l.Settled theirs t changes) (log : EntryLog q theirs) {writes : List FieldChange}
    (script : ∀ d ∈ writes, d.stamp.writer = .scenario) {c : FieldChange} (mem : c ∈ changes) :
    Spent (writes.foldl writeCell (l.side.battery.cell? t c.key)) c := by
  obtain ⟨-, x, -, -, entered⟩ := h.exists_entered log
  exact (h.spent c mem).foldl_writeCell fun d written level =>
    absurd (level ▸ script d written) (entered.writer c mem)

/-- An input under another stamp writes under other stamps, or the same. -/
theorem spent_entry (h : l.Settled theirs t changes) {stamp stamp' : Stamp} (entered : EntryWrites stamp changes)
    {m : Mutation} (writes : EntryWrites stamp' m.changes)
    (differ : ∀ c ∈ changes, c.stamp = stamp → c.stamp ≠ stamp') {c : FieldChange} (mem : c ∈ changes) :
    Spent (((l.side.battery.store.apply m).1.read t).cell? c.key) c := by
  rw [Store.cell?_apply]
  refine (h.spent c mem).foldl_writeCell fun d written level => ?_
  obtain ⟨-, made, key⟩ := Mutation.mem_writesAt written
  exact entered.value_eq writes mem made key (differ c mem) level

/-- An own input is stamped above all that has been seen. -/
theorem spent_input (h : l.Settled theirs t changes) (log : EntryLog q theirs) {m : Mutation} {stamp : Stamp}
    (writes : EntryWrites stamp m.changes) (ahead : l.side.reconciler.clock.moment < stamp.moment) {c : FieldChange}
    (mem : c ∈ changes) : Spent (((l.side.battery.store.apply m).1.read t).cell? c.key) c := by
  obtain ⟨-, x, -, -, entered⟩ := h.exists_entered log
  refine h.spent_entry entered writes (fun d made _ same => ?_) mem
  have seen := h.seen d made
  rw [same] at seen
  omega

/-- A later exchange has a higher stamp. -/
theorem spent_next (h : l.Settled theirs t changes) (log : EntryLog q theirs) {m : Mutation} {y : Exchange} {j : Nat}
    (next : theirs[j]? = some y) (reached : l.side.taken ≤ 2 * j + 1) (writes : EntryWrites y.stamp m.changes)
    {c : FieldChange} (mem : c ∈ changes) :
    Spent (((l.side.battery.store.apply m).1.read t).cell? c.key) c := by
  obtain ⟨i, x, before, found, entered⟩ := h.exists_entered log
  have below : x.stamp < y.stamp := log.lt (by omega) found next
  refine h.spent_entry entered writes (fun d _ own same => ?_) mem
  exact absurd (own.symm.trans same ▸ below) Std.lt_irrefl

end Settled

/-- A side is not behind where it was, and it has not forgotten which inputs it has seen. -/
structure Onward (q : ParticipantId) (a a' : Side) : Prop where
  later : a.reconciler.clock.moment ≤ a'.reconciler.clock.moment
  taken : a.taken ≤ a'.taken
  repeated : ∀ s, a.reconciler.isRepeated q s = true → a'.reconciler.isRepeated q s = true
  selected : a'.battery.matching.SelectedUnder Stamp.ByParticipant

namespace Hears

/-- A side goes on, and the deltas that have been heard stay spent. -/
theorem goes {a' : Side} (h : l.Hears q theirs) (onward : Onward q l.side a')
    (spent : ∀ t changes, l.Settled theirs t changes → ∀ c ∈ changes, Spent (a'.battery.cell? t c.key) c) :
    Hears q theirs ⟨a', l.heard⟩ where
  selected := onward.selected
  inputs e stamp mem := onward.repeated stamp (h.inputs e stamp mem)
  deltas t changes mem := by
    have settled := h.deltas t changes mem
    obtain ⟨i, x, before, found⟩ := settled.exchange
    exact ⟨⟨i, x, Nat.lt_of_lt_of_le before onward.taken, found⟩, spent t changes settled,
      fun c made => Nat.le_trans (settled.seen c made) onward.later⟩

/-- The other side tells more. -/
theorem told (h : l.Hears q theirs) (more : List Exchange) : l.Hears q (theirs ++ more) where
  selected := h.selected
  inputs := h.inputs
  deltas t changes mem := by
    have settled := h.deltas t changes mem
    obtain ⟨i, x, before, found, same⟩ := settled.exchange
    have bound := (List.getElem?_eq_some_iff.mp found).1
    exact ⟨⟨i, x, before, (List.getElem?_append_left bound).trans found, same⟩, settled.spent, settled.seen⟩

/-- One more message has been heard. -/
theorem hear (h : l.Hears q theirs) {m : SyncMessage}
    (input : ∀ e stamp, m = .forward e stamp → l.side.reconciler.isRepeated q stamp = true)
    (delta : ∀ t changes, m = .delta t changes → l.Settled theirs t changes) :
    Hears q theirs ⟨l.side, l.heard ++ [m]⟩ where
  selected := h.selected
  inputs e stamp mem := by
    rcases List.mem_append.mp mem with before | last
    · exact h.inputs e stamp before
    · exact input e stamp (List.mem_singleton.mp last).symm
  deltas t changes mem := by
    rcases List.mem_append.mp mem with before | last
    · obtain ⟨exchange, spent, seen⟩ := h.deltas t changes before
      exact ⟨exchange, spent, seen⟩
    · obtain ⟨exchange, spent, seen⟩ := delta t changes (List.mem_singleton.mp last).symm
      exact ⟨exchange, spent, seen⟩

section

variable (h : l.Hears q theirs) (log : EntryLog q theirs)

include h log

theorem playNext (script : List ScenarioCommand) : Hears q theirs ⟨l.side.playNext script, l.heard⟩ := by
  unfold Side.playNext
  cases next : script[l.side.played]? with
  | none => exact h
  | some command =>
    obtain ⟨later, -⟩ := l.side.reconciler.clock.moment_observe command.stamp
    refine h.goes ⟨later, Nat.le_refl _, fun _ known => known, Battery.selectedUnder_run h.selected command⟩
      fun t changes settled c mem => ?_
    show Spent ((l.side.battery.run command).1.cell? t c.key) c
    rw [Battery.cell?_run]
    refine settled.spent_script log (fun d written => ?_) mem
    obtain ⟨task, made, -⟩ := Battery.mem_scriptedAt written
    rw [(Battery.scriptWrite task made).1]
    rfl

theorem expire (now : SessionTime) : Hears q theirs ⟨l.side.expire now, l.heard⟩ := by
  obtain ⟨writes, script, store⟩ := l.side.battery.exists_scriptWrites_expireRounds now
  refine h.goes ⟨Nat.le_refl _, Nat.le_refl _, fun _ known => known,
    Battery.selectedUnder_expireRounds h.selected now⟩ fun t changes settled c mem => ?_
  show Spent (((l.side.battery.expireRounds now).1.store.read t).cell? c.key) c
  rw [store, Store.cell?_apply]
  refine settled.spent_script log (fun d written => ?_) mem
  exact script d (Mutation.mem_writesAt written).2.1

theorem input (room : l.side.reconciler.clock.HasRoom) (e : InputEvent) (now : SessionTime) :
    Hears q theirs ⟨l.side.input e now, l.heard⟩ := by
  obtain ⟨ahead, level⟩ := StampClock.moment_issue room now
  obtain ⟨clock, high, battery, -⟩ := l.side.reconciler.onLocalInput_outcome l.side.battery e now
  have writer := Stamp.byParticipant_of (l.side.reconciler.clock.writer_issue now).1
  obtain ⟨writes, entered, store, -⟩ := Battery.exists_entryWrites h.selected writer e (.localInput e.origin)
  refine h.goes ⟨?_, Nat.le_refl _, fun s known => ?_, ?_⟩ fun t changes settled c mem => ?_
  · show _ ≤ (l.side.reconciler.onLocalInput l.side.battery e now).1.clock.moment
    rw [clock]
    omega
  · show (l.side.reconciler.onLocalInput l.side.battery e now).1.isRepeated q s = true
    unfold Reconciler.isRepeated at known ⊢
    rw [high]
    exact known
  · show (l.side.reconciler.onLocalInput l.side.battery e now).2.1.matching.SelectedUnder _
    rw [battery]
    exact (Battery.selectedUnder_applyInput h.selected writer _).1
  · show Spent (((l.side.reconciler.onLocalInput l.side.battery e now).2.1.store.read t).cell? c.key) c
    rw [battery, store]
    exact settled.spent_input log entered ahead mem

omit log in
/-- Takes a message, after which the deltas that have been heard stay spent. -/
theorem takes (m : SyncMessage) {n : Nat} (reached : l.side.taken ≤ n)
    (selected : (l.side.take q m).battery.matching.SelectedUnder Stamp.ByParticipant)
    (spent : ∀ t changes, l.Settled theirs t changes →
      ∀ c ∈ changes, Spent ((l.side.take q m).battery.cell? t c.key) c) :
    Hears q theirs ⟨{ l.side.take q m with taken := n }, l.heard⟩ := by
  obtain ⟨-, later, known⟩ := l.side.reconciler.onward_onRemoteMessage l.side.battery q m
  exact h.goes ⟨later, reached, known, selected⟩ spent

/-- An input of the other side that comes next. -/
theorem takeInput {x : Exchange} (even : l.side.taken % 2 = 0) (next : theirs[l.side.taken / 2]? = some x) :
    Hears q theirs
      ⟨{ l.side.take q (.forward x.event x.stamp) with taken := l.side.taken + 1 }, l.heard⟩ := by
  have writer := Stamp.byParticipant_of (log.entered x (List.mem_of_getElem? next)).writer
  have outcome : (l.side.take q (.forward x.event x.stamp)).battery = l.side.battery ∨
      (l.side.take q (.forward x.event x.stamp)).battery =
        (l.side.battery.applyInput x.event x.stamp (.remoteInput q)).1 := by
    rcases l.side.reconciler.onForward_cases l.side.battery q x.event x.stamp with ⟨-, -, same⟩ | ⟨-, -, -, same⟩
    · exact Or.inl same
    · exact Or.inr same
  refine h.takes (.forward x.event x.stamp) (Nat.le_succ _) ?_ fun t changes settled c mem => ?_
  · rcases outcome with battery | battery <;> rw [battery]
    · exact h.selected
    · exact (Battery.selectedUnder_applyInput h.selected writer _).1
  · rcases outcome with battery | battery <;> rw [battery]
    · exact settled.spent c mem
    · obtain ⟨writes, made, store, -⟩ := Battery.exists_entryWrites h.selected writer x.event (.remoteInput q)
      rw [Battery.cell?, store]
      exact settled.spent_next log next (by omega) made mem

/-- A delta of the other side that comes next. -/
theorem takeDelta {x : Exchange} (odd : l.side.taken % 2 = 1) (next : theirs[l.side.taken / 2]? = some x) :
    Hears q theirs
      ⟨{ l.side.take q (.delta x.event.target x.changes) with taken := l.side.taken + 1 }, l.heard⟩ := by
  have writes := (log.entered x (List.mem_of_getElem? next)).writes
  have outcome : (l.side.take q (.delta x.event.target x.changes)).battery = l.side.battery ∨
      (l.side.take q (.delta x.event.target x.changes)).battery =
        (l.side.battery.apply ⟨x.event.target, .remoteDelta q, x.changes⟩).1 := by
    obtain ⟨-, ⟨-, -, same⟩ | ⟨-, -, same⟩⟩ :=
      l.side.reconciler.onDelta_cases l.side.battery q x.event.target x.changes
    · exact Or.inl same
    · exact Or.inr same
  refine h.takes (.delta x.event.target x.changes) (Nat.le_succ _) ?_ fun t changes settled c mem => ?_
  · rcases outcome with battery | battery <;> rw [battery] <;> exact h.selected
  · rcases outcome with battery | battery <;> rw [battery]
    · exact settled.spent c mem
    · exact settled.spent_next log (m := ⟨x.event.target, .remoteDelta q, x.changes⟩) next (by omega) writes mem

omit h in
/-- A delta has nothing more to do once it has been applied. -/
theorem settled_takeDelta {x : Exchange} (odd : l.side.taken % 2 = 1) (next : theirs[l.side.taken / 2]? = some x)
    (shared : (l.side.battery.store.read x.event.target).isShared = true) (heard : List SyncMessage) :
    Settled theirs ⟨{ l.side.take q (.delta x.event.target x.changes) with taken := l.side.taken + 1 }, heard⟩
      x.event.target x.changes := by
  have apart := (log.entered x (List.mem_of_getElem? next)).writes.apart
  have reached : 2 * (l.side.taken / 2) + 1 < l.side.taken + 1 := by omega
  obtain ⟨clock, -, battery⟩ := Reconciler.onDelta_spec (r := l.side.reconciler) q x.changes shared
  refine ⟨⟨_, x, reached, next, rfl⟩, fun c mem => ?_, fun c mem => ?_⟩
  · show Spent ((l.side.reconciler.onRemoteMessage _ _ _).2.1.cell? x.event.target c.key) c
    rw [battery, Battery.cell?_apply_of_apart _ apart, Mutation.writeAt?, if_pos rfl, writeAt?_of_mem apart mem]
    exact spent_writeCell _ c
  · show _ ≤ (l.side.reconciler.onRemoteMessage _ _ _).1.clock.moment
    rw [clock]
    exact (StampClock.foldl_observe x.changes l.side.reconciler.clock).2.2 c mem

/-- The next message of the other side. -/
theorem takeNext : Hears q theirs (l.takeNext q (theirs.flatMap Exchange.messages)) := by
  unfold Listener.takeNext
  obtain ⟨forward, delta⟩ := Exchange.getElem?_messages theirs (l.side.taken / 2)
  rcases Nat.mod_two_eq_zero_or_one l.side.taken with even | odd
  · rw [show 2 * (l.side.taken / 2) = l.side.taken by omega] at forward
    rw [forward]
    cases next : theirs[l.side.taken / 2]? with
    | none => exact h
    | some x =>
      have taken := h.takeInput log even next
      have entered := log.entered x (List.mem_of_getElem? next)
      dsimp only [Option.map_some]
      cases shared : (l.side.battery.store.read x.event.target).isShared with
      | false =>
        rw [Side.drops_of_not_isShared (m := .forward x.event x.stamp) q rfl shared]
        exact taken
      | true =>
        split
        · exact taken
        · refine taken.hear (fun e stamp same => ?_) fun t changes same => nomatch same
          cases same
          exact Reconciler.isRepeated_onForward entered.origin entered.writer shared
  · rw [show 2 * (l.side.taken / 2) + 1 = l.side.taken by omega] at delta
    rw [delta]
    cases next : theirs[l.side.taken / 2]? with
    | none => exact h
    | some x =>
      have taken := h.takeDelta log odd next
      dsimp only [Option.map_some]
      cases shared : (l.side.battery.store.read x.event.target).isShared with
      | false =>
        rw [Side.drops_of_not_isShared (m := .delta x.event.target x.changes) q rfl shared]
        exact taken
      | true =>
        split
        · exact taken
        · refine taken.hear (fun e stamp same => nomatch same) fun t changes same => ?_
          cases same
          exact settled_takeDelta log odd next shared l.heard

end

/-- **What a replay does**: nothing, or it applies a delta of which every change is spent. -/
theorem replays (h : l.Hears q theirs) {m : SyncMessage} (mem : m ∈ l.heard) :
    ((l.side.take q m).battery = l.side.battery ∧
        ∀ t changes, m = .delta t changes → (l.side.battery.store.read t).isShared = false) ∨
      ∃ t changes, m = .delta t changes ∧ (l.side.battery.store.read t).isShared = true ∧
        (∀ c ∈ changes, Spent (l.side.battery.cell? t c.key) c) ∧
        (l.side.take q m).battery = (l.side.battery.apply ⟨t, .remoteDelta q, changes⟩).1 := by
  cases m with
  | forward e stamp =>
    have known := h.inputs e stamp mem
    rcases l.side.reconciler.onForward_cases l.side.battery q e stamp with ⟨-, -, battery⟩ | ⟨fresh, -⟩
    · exact Or.inl ⟨battery, nofun⟩
    · rw [known] at fresh
      cases fresh
  | delta t changes =>
    obtain ⟨-, ⟨unshared, -, battery⟩ | ⟨shared, -, battery⟩⟩ :=
      l.side.reconciler.onDelta_cases l.side.battery q t changes
    · refine Or.inl ⟨battery, fun t' changes' same => ?_⟩
      cases same
      exact unshared
    · exact Or.inr ⟨t, changes, rfl, shared, (h.deltas t changes mem).spent, battery⟩
  | heartbeat | hello | start | pause | resume | finish => exact Or.inl ⟨rfl, nofun⟩

/-- A replay changes no field, and not the coordinator. -/
theorem cell?_replay (h : l.Hears q theirs) {m : SyncMessage} (mem : m ∈ l.heard) :
    (l.side.take q m).battery.matching = l.side.battery.matching ∧
      ∀ t key, (l.side.take q m).battery.cell? t key = l.side.battery.cell? t key := by
  rcases h.replays mem with ⟨battery, -⟩ | ⟨u, changes, -, -, spent, battery⟩
  · rw [battery]
    exact ⟨rfl, fun _ _ => rfl⟩
  · rw [battery]
    refine ⟨Battery.matching_apply _ _, fun t key => ?_⟩
    rw [Battery.cell?_apply]
    refine foldl_writeCell_of_spent fun c written => ?_
    obtain ⟨rfl, made, rfl⟩ := Mutation.mem_writesAt written
    exact spent c made

/-- When a replay counts: if a change of a delta is not a number and the field still has its stamp. -/
theorem battery_replay_iff (h : l.Hears q theirs) {m : SyncMessage} (mem : m ∈ l.heard) :
    (l.side.take q m).battery = l.side.battery ↔
      ∀ t changes, m = .delta t changes → (l.side.battery.store.read t).isShared = true →
        ∀ c ∈ changes, ∀ held, l.side.battery.cell? t c.key = some held → held.stamp = c.stamp →
          ¬ c.value.HasNaN := by
  rcases h.replays mem with ⟨battery, unshared⟩ | ⟨t, changes, rfl, shared, spent, battery⟩
  · refine iff_of_true battery fun t changes same shared => ?_
    rw [unshared t changes same] at shared
    cases shared
  · rw [battery, Battery.apply_eq_self_iff]
    constructor
    · intro refused u others same _ c made held found level noNumber
      cases same
      have admitted := (spent c made).admits_iff.mpr ⟨held, found, level, noNumber⟩
      rw [refused c made] at admitted
      cases admitted
    · intro numbers c made
      refine Bool.eq_false_iff.mpr fun admitted => ?_
      obtain ⟨held, found, level, noNumber⟩ := (spent c made).admits_iff.mp admitted
      exact numbers t changes rfl shared c made held found level noNumber

theorem takeAgain (h : l.Hears q theirs) (n : Nat) : Hears q theirs (l.takeAgain q n) := by
  unfold Listener.takeAgain
  cases found : l.heard[n]? with
  | none => exact h
  | some m =>
    obtain ⟨matching, cells⟩ := h.cell?_replay (List.mem_of_getElem? found)
    refine h.takes m (Nat.le_refl _) ?_ fun t changes settled c made => ?_
    · rw [matching]
      exact h.selected
    · rw [cells]
      exact settled.spent c made

end Hears

end Listener

/-! ## Runs -/

/-- What holds of the two sides at any time, when they have told `logs`. -/
structure Setting.Keeps (w : Setting) (logs : Ends (List Exchange)) (x : Ends Listener) : Prop where
  tells : ∀ r, (x.get r).side.Tells (w.participants.get r) (logs.get r)
  hears : ∀ r, (x.get r).Hears (w.participants.get r.other) (logs.get r.other)

namespace Setting

variable {w : Setting} {logs : Ends (List Exchange)} {x : Ends Listener}

theorem keeps_start (w : Setting) : w.Keeps ⟨[], []⟩ (w.listened []) where
  tells r := by
    cases r <;> exact ⟨⟨rfl, rfl, fun _ mem => absurd mem List.not_mem_nil⟩, .nil _⟩
  hears r := by
    cases r <;> exact ⟨Coordinator.selectedUnder_of_none rfl, fun _ _ mem => absurd mem List.not_mem_nil,
      fun _ _ mem => absurd mem List.not_mem_nil⟩

/-- A move of one side. -/
theorem Keeps.set (h : w.Keeps logs x) {r : Role} {l : Listener} (more : List Exchange)
    (tells : l.side.Tells (w.participants.get r) (logs.get r ++ more))
    (hears : l.Hears (w.participants.get r.other) (logs.get r.other)) :
    w.Keeps (logs.set r (logs.get r ++ more)) (x.set r l) := by
  have told := fun s => (h.hears s).told more
  constructor
  all_goals
    intro s
    cases r <;> cases s
  · exact tells
  · exact h.tells .guest
  · exact h.tells .host
  · exact tells
  · exact hears
  · exact told .guest
  · exact told .host
  · exact hears

/-- A move of one side that tells the other one nothing. -/
theorem Keeps.silent (h : w.Keeps logs x) {r : Role} {l : Listener}
    (speaks : l.side.Speaks (w.participants.get r) (logs.get r))
    (hears : l.Hears (w.participants.get r.other) (logs.get r.other)) : ∃ logs', w.Keeps logs' (x.set r l) := by
  refine ⟨_, h.set [] ?_ hears⟩
  rw [List.append_nil]
  exact ⟨speaks, (h.tells r).log⟩

/-- Every move keeps what holds of the two sides. -/
theorem Keeps.listen (h : w.Keeps logs x) (room : ∀ r, (x.get r).side.reconciler.clock.HasRoom) (m : ListenerMove) :
    ∃ logs', w.Keeps logs' (w.listen x m) := by
  cases m with
  | play r => exact h.silent ((h.tells r).speaks.playNext _) ((h.hears r).playNext (h.tells r.other).log _)
  | expire r now =>
    exact h.silent ((h.tells r).speaks.silent rfl rfl (Nat.le_refl _)) ((h.hears r).expire (h.tells r.other).log now)
  | input r captured now payload =>
    obtain ⟨more, tells⟩ := (h.tells r).input (h.hears r).selected (room r)
      (e := .captured (w.participants.get r) captured payload) rfl now
    exact ⟨_, h.set more tells ((h.hears r).input (h.tells r.other).log (room r) _ now)⟩
  | deliver r =>
    have hears := (h.hears r).takeNext (h.tells r.other).log
    rw [← (h.tells r.other).speaks.sent] at hears
    refine h.silent ?_ hears
    unfold Listener.takeNext
    cases (x.get r.other).side.sent[(x.get r).side.taken]? with
    | none => exact (h.tells r).speaks
    | some m => exact (h.tells r).speaks.take _ m _
  | replay r n =>
    refine h.silent ?_ ((h.hears r).takeAgain n)
    unfold Listener.takeAgain
    cases (x.get r).heard[n]? with
    | none => exact (h.tells r).speaks
    | some m => exact (h.tells r).speaks.take _ m _

/-- No stamp source runs out of counters in a run. -/
def KeepsRoom (w : Setting) (moves : List ListenerMove) : Prop :=
  ∀ n r, ((w.listened (moves.take n)).get r).side.reconciler.clock.HasRoom

theorem keeps_listened {moves : List ListenerMove} (room : w.KeepsRoom moves) (n : Nat) :
    ∃ logs, w.Keeps logs (w.listened (moves.take n)) := by
  induction n with
  | zero => exact ⟨_, keeps_start w⟩
  | succ n ih =>
    obtain ⟨logs, h⟩ := ih
    rw [List.take_add_one, listened, List.foldl_append, ← listened]
    cases moves[n]? with
    | none => exact ⟨logs, h⟩
    | some m => exact h.listen (room n) m

/-- **What a replay changes.**  Whatever the two sides have done and taken, when a side takes a message again that it
has applied before, every field of every task keeps its value and its stamp, and the coordinator stays as it is.  And
everything else about the tasks stays as it is too, the journal included, exactly if the message is no delta with a
change that is not a number and whose stamp its field still has. -/
theorem replay_iff {moves : List ListenerMove} (room : w.KeepsRoom moves) (r : Role) {m : SyncMessage}
    (mem : m ∈ ((w.listened moves).get r).heard) :
    (∀ t, ((((w.listened moves).get r).side.take (w.participants.get r.other) m).battery.store.read t).fields =
        (((w.listened moves).get r).side.battery.store.read t).fields) ∧
      (((w.listened moves).get r).side.take (w.participants.get r.other) m).battery.matching =
        ((w.listened moves).get r).side.battery.matching ∧
      ((((w.listened moves).get r).side.take (w.participants.get r.other) m).battery =
          ((w.listened moves).get r).side.battery ↔
        ∀ t changes, m = .delta t changes → (((w.listened moves).get r).side.battery.store.read t).isShared = true →
          ∀ c ∈ changes, ∀ held, ((w.listened moves).get r).side.battery.cell? t c.key = some held →
            held.stamp = c.stamp → ¬ c.value.HasNaN) := by
  obtain ⟨logs, h⟩ := keeps_listened room moves.length
  rw [List.take_length] at h
  obtain ⟨matching, cells⟩ := (h.hears r).cell?_replay mem
  exact ⟨fun t => OrderedMap.ext_get? (cells t), matching, (h.hears r).battery_replay_iff mem⟩

/-- Two participants, and a script that starts the communications task. -/
def radios : Setting where
  participants := ⟨⟨1⟩, ⟨2⟩⟩
  capacities := ⟨0, 0⟩
  script := [⟨0, 0, .act (.task .communications) .start, 1, 0⟩]

/-- The host tunes a radio to what is not a number, and the guest takes both messages. -/
def staleTune : List ListenerMove :=
  [.play .host, .play .guest, .input .host ⟨1000⟩ ⟨1000⟩ (.communicationTune "com1" ⟨0x7FF8000000000000⟩),
    .deliver .guest, .deliver .guest]

/-- The delta that the guest takes. -/
def staleDelta : SyncMessage :=
  .delta .communications
    [⟨radioFrequencyKey "com1", .real ⟨0x7FF8000000000000⟩, ⟨⟨1000⟩, 0, .participant ⟨1⟩⟩⟩]

theorem keepsRoom_staleTune : radios.KeepsRoom staleTune := by
  have within : ∀ n ≤ staleTune.length, ((radios.listened (staleTune.take n)).get .host).side.reconciler.clock.HasRoom ∧
      ((radios.listened (staleTune.take n)).get .guest).side.reconciler.clock.HasRoom := by
    decide +kernel
  exact forall_take (P := fun moves => ∀ r, ((radios.listened moves).get r).side.reconciler.clock.HasRoom)
    fun n upTo => Role.forall_of .host (within n upTo).1 (within n upTo).2

theorem staleDelta_mem : staleDelta ∈ ((radios.listened staleTune).get .guest).heard := by
  have second : ((radios.listened staleTune).get .guest).heard[1]? = some staleDelta := by decide +kernel
  exact List.mem_of_getElem? second

/-- Replayed, the delta leaves the fields and the coordinator, and counts as it is not a number. -/
theorem replay_iff_staleTune : radios.KeepsRoom staleTune ∧
    staleDelta ∈ ((radios.listened staleTune).get .guest).heard ∧
    (∀ t, ((((radios.listened staleTune).get .guest).side.take ⟨1⟩ staleDelta).battery.store.read t).fields =
        (((radios.listened staleTune).get .guest).side.battery.store.read t).fields) ∧
    (((radios.listened staleTune).get .guest).side.take ⟨1⟩ staleDelta).battery.matching =
      ((radios.listened staleTune).get .guest).side.battery.matching := by
  have spec := replay_iff keepsRoom_staleTune .guest staleDelta_mem
  exact ⟨keepsRoom_staleTune, staleDelta_mem, spec.1, spec.2.1⟩

/-- A replay may count: the delta with what is not a number takes effect once more, and the task gets a new version. -/
theorem not_replay_staleTune : ¬ ∀ (w : Setting) (moves : List ListenerMove), w.KeepsRoom moves → ∀ r m,
    m ∈ ((w.listened moves).get r).heard →
      (((w.listened moves).get r).side.take (w.participants.get r.other) m).battery =
        ((w.listened moves).get r).side.battery := by
  intro claim
  have same := claim radios staleTune keepsRoom_staleTune .guest staleDelta staleDelta_mem
  have version := congrArg (fun b : Battery => (b.store.read .communications).version) same
  exact absurd version (by decide +kernel)

end Setting

end Tandem
