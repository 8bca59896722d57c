import Tandem.Proofs.Matching.Mirror
import Tandem.Proofs.Reconcile.Acknowledgements
import Tandem.Proofs.Scenario.Lines
/-!
# Tasks that stay local

A task is local if it takes no input, or if its network mode says so.  What is told about it comes to nothing, in
whatever state the battery is: `Reconciler.local_takeAll` says so for any messages of any senders, and includes the
coordinator if the matching task is local.  In the other direction an own input for a local task leads to no message
(`Reconciler.silent_of_isLocal`).  That needs a look at the writes of inputs, since the task is looked at when the input
has been applied: no input writes the network mode.
-/

namespace Tandem

/-- The task is not shared: it takes no input, or it is in the local network mode. -/
def TaskState.IsLocal (s : TaskState) : Prop := s.task.takesInput = false ∨ s.text "network" = "no"

theorem TaskState.isLocal_iff {s : TaskState} : s.IsLocal ↔ s.isShared = false := by
  unfold IsLocal isShared
  cases s.task.takesInput <;> simp

/-- A forwarded input is for the task that it acts on. -/
def SyncMessage.Aimed : SyncMessage → Prop
  | forward e _ => e.target = e.payload.task
  | _ => True

/-! ## What comes off the wire -/

namespace Wire

/-- Whatever a reader takes has a property. -/
def Reader.Yields {α : Type} (r : Reader α) (property : α → Prop) : Prop :=
  ∀ octets a rest, r octets = .ok (a, rest) → property a

namespace Reader.Yields

variable {α β : Type} {property : β → Prop}

theorem pure {b : β} (holds : property b) : Yields (Pure.pure b : Reader β) property := by
  intro octets a rest same
  cases same
  exact holds

/-- What is taken last decides. -/
theorem bind {r : Reader α} {f : α → Reader β} (last : ∀ a, (f a).Yields property) : (r >>= f).Yields property := by
  intro octets b rest taken
  obtain ⟨⟨a, left⟩, -, after⟩ := Except.bind_eq_ok_iff.mp taken
  exact last a left b rest after

theorem readAll {r : Reader β} (h : r.Yields property) {octets : Octets} {b : β} (read : r.readAll octets = .ok b) :
    property b := by
  obtain ⟨⟨a, rest⟩, taken, after⟩ := Except.bind_eq_ok_iff.mp read
  obtain ⟨-, -, same⟩ := Except.bind_eq_ok_iff.mp after
  cases same
  exact h octets _ rest taken

end Reader.Yields

end Wire

/-- **What comes off the wire is aimed.** -/
theorem SyncMessage.aimed_of_decode {type : MessageType} {payload : Octets} {m : SyncMessage}
    (read : SyncMessage.decode type payload = .ok m) : m.Aimed := by
  refine Wire.Reader.Yields.readAll ?_ read
  cases type with
  | stateDelta => exact .bind fun _ => .bind fun _ => .bind fun _ => .pure trivial
  | inputForward => exact .bind fun _ => .bind fun _ => .bind fun _ => .bind fun _ => .pure rfl
  | heartbeat => exact .bind fun _ => .pure trivial
  | sessionControl =>
    refine .bind fun tag => ?_
    repeat' split
    · exact .bind fun _ => .bind fun _ => .pure trivial
    · exact .bind fun _ => .pure trivial
    · exact .bind fun _ => .pure trivial
    · exact .bind fun _ => .pure trivial
    · exact .pure trivial
    · exact fun _ _ _ failed => nomatch failed

/-! ## Own inputs -/

namespace Battery

variable {b : Battery} {e : InputEvent} {stamp : Stamp}

/-- No input writes the network mode. -/
theorem key_ne_network_of_input {d : FieldChange} (mem : d ∈ (b.inputEffect e stamp).2.toOption.getD []) :
    d.key ≠ "network" := by
  have numbered : Coordinator.selectionKey e.origin ≠ "network" := by
    intro same
    have number := actionType?_selectionKey e.origin
    rw [same] at number
    exact absurd number (by decide)
  unfold inputEffect at mem
  split at mem
  · rename_i object _
    rcases (b.matching.selects_select e.origin object stamp).changes.2 d mem with selection | ⟨-, status⟩
    · rwa [selection]
    · rw [status]
      show ("round-status" : FieldKey) ≠ "network"
      decide
  · rw [List.mem_singleton.mp mem]
    intro same
    have letters := congrArg String.toList same
    simp [Coordinator.centeringKey, toString_string] at letters
  · intro same
    obtain ⟨v, listed, -⟩ := ((b.store.read e.target).inputWrites e.payload stamp).inputType?_eq mem
    rw [same, inputType?_network] at listed
    cases listed

/-- An input leaves the network mode of every task. -/
theorem network_applyInput (b : Battery) (e : InputEvent) (stamp : Stamp) (origin : Origin) (t : TaskId) :
    (b.applyInput e stamp origin).1.cell? t "network" = b.cell? t "network" := by
  rw [applyInput_fst]
  split
  · rw [cell?_apply]
    have none : Mutation.writesAt ⟨e.target, origin, (b.inputEffect e stamp).2.toOption.getD []⟩ t "network" = [] := by
      unfold Mutation.writesAt
      split
      · exact List.filter_eq_nil_iff.mpr fun d mem => by simpa using key_ne_network_of_input mem
      · rfl
    rw [none]
    rfl
  · rfl

theorem task_applyInput (b : Battery) (e : InputEvent) (stamp : Stamp) (origin : Origin) (t : TaskId) :
    ((b.applyInput e stamp origin).1.store.read t).task = (b.store.read t).task := by
  rw [applyInput_fst]
  split
  · exact task_read_apply _ _ t
  · rfl

/-- An input neither makes a task local nor shares it. -/
theorem isLocal_applyInput {b : Battery} (e : InputEvent) (stamp : Stamp) (origin : Origin) {t : TaskId} :
    ((b.applyInput e stamp origin).1.store.read t).IsLocal ↔ (b.store.read t).IsLocal := by
  have mode : ((b.applyInput e stamp origin).1.store.read t).cell? "network" = (b.store.read t).cell? "network" :=
    b.network_applyInput e stamp origin t
  unfold TaskState.IsLocal TaskState.text TaskState.get?
  rw [mode, task_applyInput]

/-- Only a selection concerns the coordinator. -/
theorem matching_applyInput (b : Battery) {e : InputEvent} (other : e.payload.task ≠ .matching) (stamp : Stamp)
    (origin : Origin) : (b.applyInput e stamp origin).1.matching = b.matching := by
  rw [applyInput_fst]
  split
  · show (b.inputEffect e stamp).1 = b.matching
    unfold inputEffect
    split
    · rename_i object selects
      rw [selects] at other
      exact absurd rfl other
    · rfl
    · rfl
  · rfl

end Battery

namespace Reconciler

/-- **Nothing is said of an input for a local task.** -/
theorem silent_of_isLocal (r : Reconciler) {b : Battery} {e : InputEvent} (here : (b.store.read e.target).IsLocal)
    (now : SessionTime) : (r.onLocalInput b e now).2.2 = [] := by
  have stays := (Battery.isLocal_applyInput e (r.clock.issue now).1 (.localInput e.origin)).mpr here
  rw [TaskState.isLocal_iff] at stays
  unfold onLocalInput
  dsimp only
  split
  · rfl
  · rename_i after outcome applied
    rw [applied] at stays
    split
    · rfl
    · rw [if_pos (by rw [stays]; rfl)]

/-! ## Messages of the other peer -/

/-- **One message** leaves a local task as it is, and the coordinator if its task is local. -/
theorem local_onRemoteMessage (r : Reconciler) (b : Battery) (sender : ParticipantId) (m : SyncMessage) :
    (∀ t, (b.store.read t).IsLocal → (r.onRemoteMessage b sender m).2.1.store.read t = b.store.read t) ∧
      (m.Aimed → (b.store.read .matching).IsLocal → (r.onRemoteMessage b sender m).2.1.matching = b.matching) := by
  have dropped : ∀ t, m.task? = some t → (b.store.read t).IsLocal → (r.onRemoteMessage b sender m).2.1 = b :=
    fun t task here =>
      congrArg Prod.fst (r.onRemoteMessage_of_not_isShared sender task (TaskState.isLocal_iff.mp here)).2.2
  constructor
  · intro t here
    by_cases about : m.task? = some t
    · rw [dropped t about here]
    · exact r.read_onRemoteMessage_of_ne b sender about
  · intro aimed here
    rcases r.onRemoteMessage_cases b sender m with
      ⟨-, battery⟩ | ⟨e, stamp, rfl, -, battery⟩ | ⟨u, changes, rfl, -, battery⟩
    · rw [battery]
    · by_cases matching : e.payload.task = .matching
      · rw [dropped e.target rfl ((aimed.trans matching).symm ▸ here)]
      · rw [battery, Battery.matching_applyInput _ matching]
    · rw [battery]
      rfl

/-- The reconciler and the battery after messages, each with its sender. -/
def takeAll (r : Reconciler) (b : Battery) : List (ParticipantId × SyncMessage) → Reconciler × Battery
  | [] => (r, b)
  | (sender, m) :: rest => (r.onRemoteMessage b sender m).1.takeAll (r.onRemoteMessage b sender m).2.1 rest

/-- **Whatever is received**, a local task stays as it is, and so does the coordinator if its task is local. -/
theorem local_takeAll (r : Reconciler) (b : Battery) (messages : List (ParticipantId × SyncMessage)) :
    (∀ t, (b.store.read t).IsLocal → (r.takeAll b messages).2.store.read t = b.store.read t) ∧
      ((∀ m ∈ messages, m.2.Aimed) → (b.store.read .matching).IsLocal →
        (r.takeAll b messages).2.matching = b.matching) := by
  induction messages generalizing r b with
  | nil => exact ⟨fun _ _ => rfl, fun _ _ => rfl⟩
  | cons first rest ih =>
    obtain ⟨sender, m⟩ := first
    obtain ⟨task, coordinator⟩ := r.local_onRemoteMessage b sender m
    obtain ⟨task', coordinator'⟩ := ih (r.onRemoteMessage b sender m).1 (r.onRemoteMessage b sender m).2.1
    constructor
    · intro t here
      have still := task t here
      exact (task' t (still.symm ▸ here)).trans still
    · intro aimed here
      obtain ⟨first, others⟩ := List.forall_mem_cons.mp aimed
      exact (coordinator' others ((task .matching here).symm ▸ here)).trans (coordinator first here)

end Reconciler

end Tandem
