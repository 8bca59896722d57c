import Tandem.Proofs.Reconcile.Exchanges
import Tandem.Proofs.Store.Again
/-!
# What the messages do

What a reconciler does with a message, whatever the message is about: a forwarded input is looked at once
(`Reconciler.onForward_cases`), a delta whenever it comes (`Reconciler.onDelta_cases`), and nothing is done with a
message about a task that the participants do not share.  On the other hand a side only sends what its participant has
entered, in exchanges with rising stamps (`Side.Speaks`).
-/

namespace Tandem

/-! ## What a reconciler does with a message -/

namespace Reconciler

variable {r : Reconciler} {b : Battery} {sender : ParticipantId} {e : InputEvent} {stamp : Stamp}

/-- A message about a task that is not shared does nothing. -/
theorem onRemoteMessage_of_not_isShared (r : Reconciler) (sender : ParticipantId) {m : SyncMessage} {t : TaskId}
    (task : m.task? = some t) (unshared : (b.store.read t).isShared = false) :
    (r.onRemoteMessage b sender m).1.clock = r.clock ∧ (r.onRemoteMessage b sender m).1.remoteHigh = r.remoteHigh ∧
      (r.onRemoteMessage b sender m).2 = (b, .localTask t) := by
  have dropped : m.task?.filter (fun t => !(b.store.read t).isShared) = some t := by
    rw [task, Option.filter_some, unshared]
    rfl
  unfold onRemoteMessage
  rw [dropped]
  exact ⟨rfl, rfl, rfl⟩

/-- A message about a task that is shared is looked at. -/
theorem onRemoteMessage_of_isShared {m : SyncMessage} {t : TaskId} (task : m.task? = some t)
    (shared : (b.store.read t).isShared = true) : m.task?.filter (fun t => !(b.store.read t).isShared) = none := by
  rw [task, Option.filter_some, shared]
  rfl

/-- A forwarded input does nothing, or it has not been seen before and is applied. -/
theorem onForward_cases (r : Reconciler) (b : Battery) (sender : ParticipantId) (e : InputEvent) (stamp : Stamp) :
    ((r.onRemoteMessage b sender (.forward e stamp)).1.clock = r.clock ∧
        (r.onRemoteMessage b sender (.forward e stamp)).1.remoteHigh = r.remoteHigh ∧
        (r.onRemoteMessage b sender (.forward e stamp)).2.1 = b) ∨
      (r.isRepeated sender stamp = false ∧
        (r.onRemoteMessage b sender (.forward e stamp)).1.clock = r.clock.observe stamp ∧
        (r.onRemoteMessage b sender (.forward e stamp)).1.remoteHigh = r.remoteHigh.insert sender stamp ∧
        (r.onRemoteMessage b sender (.forward e stamp)).2.1 = (b.applyInput e stamp (.remoteInput sender)).1) := by
  unfold onRemoteMessage
  split
  · exact Or.inl ⟨rfl, rfl, rfl⟩
  · dsimp only
    unfold onRemoteInput
    split
    · exact Or.inl ⟨rfl, rfl, rfl⟩
    · split
      · exact Or.inl ⟨rfl, rfl, rfl⟩
      · rename_i fresh
        refine Or.inr ⟨Bool.eq_false_iff.mpr fresh, ?_⟩
        dsimp only
        split
        all_goals
          rename_i same
          rw [same]
          exact ⟨rfl, rfl, rfl⟩

/-- A forwarded input of the right sender is known once it has been looked at. -/
theorem isRepeated_onForward (origin : e.origin = sender) (writer : stamp.writer = .participant sender)
    (shared : (b.store.read e.target).isShared = true) :
    (r.onRemoteMessage b sender (.forward e stamp)).1.isRepeated sender stamp = true := by
  have genuine : ¬ (e.origin ≠ sender ∨ stamp.writer ≠ .participant sender) :=
    not_or.mpr ⟨fun other => other origin, fun other => other writer⟩
  unfold onRemoteMessage
  rw [onRemoteMessage_of_isShared (m := .forward e stamp) rfl shared]
  dsimp only
  unfold onRemoteInput
  rw [if_neg genuine]
  split
  · assumption
  · have known : ∀ r' : Reconciler, r'.remoteHigh = r.remoteHigh.insert sender stamp →
        r'.isRepeated sender stamp = true := by
      intro r' high
      unfold isRepeated
      rw [high, OrderedMap.get?_insert, if_pos rfl]
      exact decide_eq_true (Std.le_refl stamp)
    dsimp only
    split <;> exact known _ rfl

/-- A local input is stamped by the clock and applied; what is forwarded is the input and what took effect. -/
theorem onLocalInput_outcome (r : Reconciler) (b : Battery) (e : InputEvent) (now : SessionTime) :
    (r.onLocalInput b e now).1.clock = (r.clock.issue now).2 ∧
      (r.onLocalInput b e now).1.remoteHigh = r.remoteHigh ∧
      (r.onLocalInput b e now).2.1 = (b.applyInput e (r.clock.issue now).1 (.localInput e.origin)).1 ∧
      ((r.onLocalInput b e now).2.2 = [] ∨ ∃ outcome,
        (b.applyInput e (r.clock.issue now).1 (.localInput e.origin)).2 = .ok outcome ∧
        (r.onLocalInput b e now).2.2 = [.forward e (r.clock.issue now).1, .delta e.target outcome.applied]) := by
  unfold onLocalInput
  dsimp only
  split
  · rename_i same
    rw [same]
    exact ⟨rfl, rfl, rfl, Or.inl rfl⟩
  · rename_i same
    rw [same]
    split
    · exact ⟨rfl, rfl, rfl, Or.inl rfl⟩
    · split
      · exact ⟨rfl, rfl, rfl, Or.inl rfl⟩
      · exact ⟨rfl, rfl, rfl, Or.inr ⟨_, rfl, rfl⟩⟩

/-- A delta for a shared task is applied, and one for another task does nothing. -/
theorem onDelta_cases (r : Reconciler) (b : Battery) (sender : ParticipantId) (t : TaskId)
    (changes : List FieldChange) :
    (r.onRemoteMessage b sender (.delta t changes)).1.remoteHigh = r.remoteHigh ∧
      (((b.store.read t).isShared = false ∧
          (r.onRemoteMessage b sender (.delta t changes)).1.clock = r.clock ∧
          (r.onRemoteMessage b sender (.delta t changes)).2.1 = b) ∨
        ((b.store.read t).isShared = true ∧
          (r.onRemoteMessage b sender (.delta t changes)).1.clock =
            changes.foldl (fun clock c => clock.observe c.stamp) r.clock ∧
          (r.onRemoteMessage b sender (.delta t changes)).2.1 = (b.apply ⟨t, .remoteDelta sender, changes⟩).1)) := by
  cases shared : (b.store.read t).isShared with
  | false =>
    obtain ⟨clock, high, rest⟩ :=
      r.onRemoteMessage_of_not_isShared sender (m := .delta t changes) rfl shared
    exact ⟨high, Or.inl ⟨rfl, clock, congrArg Prod.fst rest⟩⟩
  | true =>
    obtain ⟨clock, high, battery⟩ := onDelta_spec (r := r) sender changes shared
    exact ⟨high, Or.inr ⟨rfl, clock, battery⟩⟩

/-- What a message can do to the stamp source and to the battery: nothing, or it is an input or a delta and is
applied. -/
theorem onRemoteMessage_cases (r : Reconciler) (b : Battery) (sender : ParticipantId) (m : SyncMessage) :
    ((r.onRemoteMessage b sender m).1.clock = r.clock ∧ (r.onRemoteMessage b sender m).2.1 = b) ∨
      (∃ e stamp, m = .forward e stamp ∧ (r.onRemoteMessage b sender m).1.clock = r.clock.observe stamp ∧
        (r.onRemoteMessage b sender m).2.1 = (b.applyInput e stamp (.remoteInput sender)).1) ∨
      ∃ t changes, m = .delta t changes ∧
        (r.onRemoteMessage b sender m).1.clock = changes.foldl (fun clock c => clock.observe c.stamp) r.clock ∧
        (r.onRemoteMessage b sender m).2.1 = (b.apply ⟨t, .remoteDelta sender, changes⟩).1 := by
  cases m with
  | forward e stamp =>
    rcases r.onForward_cases b sender e stamp with ⟨clock, -, battery⟩ | ⟨-, clock, -, battery⟩
    · exact Or.inl ⟨clock, battery⟩
    · exact Or.inr (Or.inl ⟨e, stamp, rfl, clock, battery⟩)
  | delta t changes =>
    rcases (r.onDelta_cases b sender t changes).2 with ⟨-, clock, battery⟩ | ⟨-, clock, battery⟩
    · exact Or.inl ⟨clock, battery⟩
    · exact Or.inr (Or.inr ⟨t, changes, rfl, clock, battery⟩)
  | heartbeat | hello | start | pause | resume | finish => exact Or.inl ⟨rfl, rfl⟩

/-- A message about another task leaves a task. -/
theorem read_onRemoteMessage_of_ne (r : Reconciler) (b : Battery) (sender : ParticipantId) {m : SyncMessage}
    {t : TaskId} (other : m.task? ≠ some t) : (r.onRemoteMessage b sender m).2.1.store.read t = b.store.read t := by
  rcases r.onRemoteMessage_cases b sender m with
    ⟨-, battery⟩ | ⟨e, stamp, rfl, -, battery⟩ | ⟨u, changes, rfl, -, battery⟩
  · rw [battery]
  · have target : e.target ≠ t := fun same => other (congrArg some same)
    rw [battery, b.read_applyInput_of_ne target]
  · have target : u ≠ t := fun same => other (congrArg some same)
    rw [battery]
    exact (Store.read_apply _ _ _).trans (if_neg target)

/-- Whatever is taken, the stamp source keeps its writer and is not behind where it was, and inputs that have been seen
before are known. -/
theorem onward_onRemoteMessage (r : Reconciler) (b : Battery) (sender : ParticipantId) (m : SyncMessage) :
    (r.onRemoteMessage b sender m).1.clock.writer = r.clock.writer ∧
      r.clock.moment ≤ (r.onRemoteMessage b sender m).1.clock.moment ∧
      ∀ s, r.isRepeated sender s = true → (r.onRemoteMessage b sender m).1.isRepeated sender s = true := by
  cases m with
  | forward e stamp =>
    rcases r.onForward_cases b sender e stamp with ⟨clock, high, -⟩ | ⟨fresh, clock, high, -⟩
    · rw [clock]
      refine ⟨rfl, Nat.le_refl _, fun s known => ?_⟩
      unfold isRepeated at known ⊢
      rw [high]
      exact known
    · rw [clock]
      refine ⟨r.clock.writer_observe stamp, (r.clock.moment_observe stamp).1, fun s known => ?_⟩
      unfold isRepeated at known fresh ⊢
      rw [high, OrderedMap.get?_insert, if_pos rfl]
      cases top : r.remoteHigh.get? sender with
      | none =>
        rw [top] at known
        cases known
      | some top' =>
        rw [top] at known fresh
        have upTo : s ≤ top' := of_decide_eq_true known
        have above : ¬ stamp ≤ top' := of_decide_eq_false fresh
        exact decide_eq_true (Std.le_trans upTo (Std.le_of_not_ge above))
  | delta t changes =>
    obtain ⟨high, outcome⟩ := r.onDelta_cases b sender t changes
    have known : ∀ s, r.isRepeated sender s = true →
        (r.onRemoteMessage b sender (.delta t changes)).1.isRepeated sender s = true := by
      intro s known
      unfold isRepeated at known ⊢
      rw [high]
      exact known
    rcases outcome with ⟨-, clock, -⟩ | ⟨-, clock, -⟩
    · rw [clock]
      exact ⟨rfl, Nat.le_refl _, known⟩
    · obtain ⟨writer, later, -⟩ := StampClock.foldl_observe changes r.clock
      rw [clock]
      exact ⟨writer, later, known⟩
  | heartbeat | hello | start | pause | resume | finish => exact ⟨rfl, Nat.le_refl _, fun _ known => known⟩

end Reconciler

/-! ## What a side sends -/

/-- A side has sent the messages of the exchanges `mine`, and its clock is not behind them. -/
structure Side.Speaks (p : ParticipantId) (mine : List Exchange) (a : Side) : Prop where
  writer : a.reconciler.clock.writer = p
  sent : a.sent = mine.flatMap Exchange.messages
  issued : ∀ x ∈ mine, x.stamp.moment ≤ a.reconciler.clock.moment

namespace Side.Speaks

variable {p : ParticipantId} {mine : List Exchange} {a a' : Side}

theorem writer_issue (h : a.Speaks p mine) (now : SessionTime) :
    (a.reconciler.clock.issue now).1.writer = .participant p :=
  (a.reconciler.clock.writer_issue now).1.trans (congrArg Writer.participant h.writer)

/-- The next stamp is above those of all exchanges. -/
theorem lt_issue (h : a.Speaks p mine) (room : a.reconciler.clock.HasRoom) (now : SessionTime) {x : Exchange}
    (mem : x ∈ mine) : x.stamp < (a.reconciler.clock.issue now).1 :=
  Stamp.lt_of_moment_lt (Nat.lt_of_le_of_lt (h.issued x mem) (StampClock.moment_issue room now).1)

/-- A side that sends nothing more. -/
theorem silent (h : a.Speaks p mine) (writer : a'.reconciler.clock.writer = a.reconciler.clock.writer)
    (sent : a'.sent = a.sent) (later : a.reconciler.clock.moment ≤ a'.reconciler.clock.moment) : a'.Speaks p mine where
  writer := writer.trans h.writer
  sent := sent.trans h.sent
  issued x mem := Nat.le_trans (h.issued x mem) later

/-- A side that sends more under the next stamp of its clock. -/
theorem tell (h : a.Speaks p mine) (room : a.reconciler.clock.HasRoom) {now : SessionTime}
    (clock : a'.reconciler.clock = (a.reconciler.clock.issue now).2) {more : List Exchange}
    (sent : a'.sent = a.sent ++ more.flatMap Exchange.messages)
    (stamps : ∀ x ∈ more, x.stamp = (a.reconciler.clock.issue now).1) : a'.Speaks p (mine ++ more) := by
  obtain ⟨ahead, level⟩ := StampClock.moment_issue room now
  refine ⟨?_, ?_, fun x mem => ?_⟩
  · rw [clock, (a.reconciler.clock.writer_issue now).2, h.writer]
  · rw [sent, h.sent, List.flatMap_append]
  · rw [clock]
    rcases List.mem_append.mp mem with before | last
    · have issued := h.issued x before
      omega
    · rw [stamps x last]
      exact Nat.le_of_eq level.symm

/-- An input of the participant is told in one exchange, if at all. -/
theorem input (h : a.Speaks p mine) (room : a.reconciler.clock.HasRoom) (e : InputEvent) (now : SessionTime) :
    ∃ more, (a.input e now).Speaks p (mine ++ more) ∧ (more = [] ∨ ∃ outcome,
      (a.battery.applyInput e (a.reconciler.clock.issue now).1 (.localInput e.origin)).2 = .ok outcome ∧
        more = [⟨e, (a.reconciler.clock.issue now).1, outcome.applied⟩]) := by
  obtain ⟨clock, -, -, none | ⟨outcome, applied, some⟩⟩ := a.reconciler.onLocalInput_outcome a.battery e now
  · refine ⟨[], h.tell room clock ?_ fun _ mem => absurd mem List.not_mem_nil, Or.inl rfl⟩
    exact congrArg (a.sent ++ ·) none
  · refine ⟨_, h.tell room clock ?_ fun x mem => ?_, Or.inr ⟨outcome, applied, rfl⟩⟩
    · exact congrArg (a.sent ++ ·) some
    · rw [List.mem_singleton.mp mem]

theorem playNext (h : a.Speaks p mine) (script : List ScenarioCommand) : (a.playNext script).Speaks p mine := by
  unfold Side.playNext
  cases script[a.played]? with
  | none => exact h
  | some c => exact h.silent (StampClock.writer_observe _ _) rfl (a.reconciler.clock.moment_observe c.stamp).1

/-- Taking a message says nothing. -/
theorem take (h : a.Speaks p mine) (sender : ParticipantId) (m : SyncMessage) (n : Nat) :
    Speaks p mine { a.take sender m with taken := n } := by
  obtain ⟨writer, later, -⟩ := a.reconciler.onward_onRemoteMessage a.battery sender m
  exact h.silent writer rfl later

end Side.Speaks

end Tandem
