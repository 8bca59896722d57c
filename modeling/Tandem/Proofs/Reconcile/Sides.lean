import Tandem.Reconciler
import Tandem.Simulation.Ends
import Tandem.Proofs.Scenario.Scripted
/-!
# Two sides without a session

A side is the task battery and the reconciler of one participant.  In a run of two sides each of them plays the
script at its own pace, takes the inputs of its participant, and takes the messages of the other side in order.  A
message that has been taken may be taken again at any time.

The first half of the module defines the runs.  The second half says what each operation of the reconciler does:
which changes it applies to the battery, and which stamps its clock sees.
-/

namespace Tandem

/-- One side of a run. -/
structure Side where
  battery : Battery
  reconciler : Reconciler
  /-- How many commands of the script have been run. -/
  played : Nat
  /-- The messages for the other side, in order. -/
  sent : List SyncMessage
  /-- How many messages of the other side have been taken. -/
  taken : Nat

namespace Side

/-- The side of a participant before anything has happened. -/
def new (capacity : Nat) (participants : ParticipantId × ParticipantId) (me : ParticipantId) : Side :=
  ⟨.new capacity participants, .new me, 0, [], 0⟩

/-- Runs the next command of the script, after taking note of its stamp. -/
def playNext (a : Side) (script : List ScenarioCommand) : Side :=
  match script[a.played]? with
  | none => a
  | some c =>
    { a with
      battery := (a.battery.run c).1
      reconciler := a.reconciler.observe c.stamp
      played := a.played + 1 }

/-- Takes an input of the participant. -/
def input (a : Side) (e : InputEvent) (now : SessionTime) : Side :=
  let (reconciler, battery, messages) := a.reconciler.onLocalInput a.battery e now
  { a with reconciler := reconciler, battery := battery, sent := a.sent ++ messages }

/-- Takes a message of the other side. -/
def take (a : Side) (sender : ParticipantId) (m : SyncMessage) : Side :=
  let (reconciler, battery, _) := a.reconciler.onRemoteMessage a.battery sender m
  { a with reconciler := reconciler, battery := battery }

/-- Takes the next message of the other side, if there is one. -/
def takeNext (a : Side) (sender : ParticipantId) (messages : List SyncMessage) : Side :=
  match messages[a.taken]? with
  | none => a
  | some m => { a.take sender m with taken := a.taken + 1 }

/-- Takes a message of the other side again, if it has been taken before. -/
def takeAgain (a : Side) (sender : ParticipantId) (messages : List SyncMessage) (n : Nat) : Side :=
  match messages[n]? with
  | none => a
  | some m => if n < a.taken then a.take sender m else a

/-- What a side may be once it has taken one of the messages, for the first time or again, or none. -/
inductive Takes (a : Side) (sender : ParticipantId) (messages : List SyncMessage) : Side → Prop where
  | none : Takes a sender messages a
  | one {m : SyncMessage} (mem : m ∈ messages) (taken : Nat) :
      Takes a sender messages { a.take sender m with taken := taken }

theorem takes_takeNext (a : Side) (sender : ParticipantId) (messages : List SyncMessage) :
    a.Takes sender messages (a.takeNext sender messages) := by
  unfold takeNext
  split
  · exact .none
  · rename_i found
    exact .one (List.mem_of_getElem? found) _

theorem takes_takeAgain (a : Side) (sender : ParticipantId) (messages : List SyncMessage) (n : Nat) :
    a.Takes sender messages (a.takeAgain sender messages n) := by
  unfold takeAgain
  split
  · exact .none
  · rename_i found
    split
    · exact .one (List.mem_of_getElem? found) a.taken
    · exact .none

end Side

/-- What can happen in a run. -/
inductive SideMove where
  /-- A side runs the next command of the script. -/
  | play (side : Role)
  /-- The participant of a side does something, at a session time that the side's clock shows. -/
  | input (side : Role) (captured now : SessionTime) (payload : InputPayload)
  /-- A side takes the next message of the other one. -/
  | deliver (side : Role)
  /-- A side takes a message again. -/
  | redeliver (side : Role) (n : Nat)

/-- What a run is about: who takes part, how many notifications each side keeps, and the script. -/
structure Setting where
  participants : Ends ParticipantId
  capacities : Ends Nat
  script : List ScenarioCommand

namespace Setting

variable (w : Setting)

/-- The two participants, as both coordinators know them. -/
def pair : ParticipantId × ParticipantId := (w.participants.host, w.participants.guest)

/-- Two fresh sides. -/
def start : Ends Side :=
  ⟨.new w.capacities.host w.pair w.participants.host, .new w.capacities.guest w.pair w.participants.guest⟩

/-- One move of a run. -/
def perform (x : Ends Side) : SideMove → Ends Side
  | .play r => x.set r ((x.get r).playNext w.script)
  | .input r captured now payload =>
    x.set r ((x.get r).input (.captured (w.participants.get r) captured payload) now)
  | .deliver r => x.set r ((x.get r).takeNext (w.participants.get r.other) (x.get r.other).sent)
  | .redeliver r n => x.set r ((x.get r).takeAgain (w.participants.get r.other) (x.get r.other).sent n)

/-- The two sides after a run. -/
def after (moves : List SideMove) : Ends Side := moves.foldl w.perform w.start

/-- The sides when the script has been played and every message has been taken. -/
def IsSettled (x : Ends Side) : Prop :=
  ∀ r, (x.get r).played = w.script.length ∧ (x.get r).taken = (x.get r.other).sent.length

variable {w}

/-- What holds after the first moves of a run, however many of its moves, holds after any number. -/
theorem forall_take {α : Type} {P : List α → Prop} {moves : List α} (within : ∀ n ≤ moves.length, P (moves.take n))
    (n : Nat) : P (moves.take n) := by
  have bounded : moves.take (min n moves.length) = moves.take n := by rw [← List.take_take, List.take_length]
  exact bounded ▸ within _ (Nat.min_le_right _ _)

/-- **What every side keeps.**  A property of a side holds throughout a run if it holds at the beginning, and if the
script, an input of the participant and a message that the other side has sent leave it true. -/
theorem forall_side_after {P : Role → Side → Prop} {moves : List SideMove} (start : ∀ r, P r (w.start.get r))
    (play : ∀ r a, P r a → P r (a.playNext w.script))
    (input : ∀ r a captured now payload, P r a → a.reconciler.clock.HasRoom →
      P r (a.input (.captured (w.participants.get r) captured payload) now))
    (take : ∀ r a b m n, P r a → P r.other b → m ∈ b.sent →
      P r { a.take (w.participants.get r.other) m with taken := n })
    (room : ∀ k r, ((w.after (moves.take k)).get r).reconciler.clock.HasRoom) (k : Nat) :
    ∀ r, P r ((w.after (moves.take k)).get r) := by
  induction k with
  | zero => exact start
  | succ k ih =>
    rw [List.take_add_one, after, List.foldl_append, ← after]
    have now := room k
    generalize w.after (moves.take k) = x at ih now
    have set : ∀ s {a : Side}, P s a → ∀ r, P r ((x.set s a).get r) := by
      intro s a moved r
      rw [Ends.get_set]
      split
      · rename_i here
        exact here ▸ moved
      · exact ih r
    have taken : ∀ s {a : Side}, (x.get s).Takes (w.participants.get s.other) (x.get s.other).sent a → P s a := by
      intro s a takes
      cases takes with
      | none => exact ih s
      | one mem n => exact take s _ _ _ n (ih s) (ih s.other) mem
    cases moves[k]? with
    | none => exact ih
    | some m =>
      cases m with
      | play s => exact set s (play s _ (ih s))
      | input s captured at_ payload => exact set s (input s _ captured at_ payload (ih s) (now s))
      | deliver s => exact set s (taken s (Side.takes_takeNext _ _ _))
      | redeliver s n => exact set s (taken s (Side.takes_takeAgain _ _ _ n))

theorem participants_ne (distinct : w.participants.host ≠ w.participants.guest) (r : Role) :
    w.participants.get r ≠ w.participants.get r.other := by
  cases r with
  | host => exact distinct
  | guest => exact distinct.symm

end Setting

/-! ## What the operations do -/

namespace Battery

/-- An input outside the matching task applies its changes and is never refused. -/
theorem applyInput_eq (b : Battery) {e : InputEvent} (unmatched : e.payload.task ≠ .matching) (stamp : Stamp)
    (origin : Origin) : b.applyInput e stamp origin =
      ((b.apply ⟨e.target, origin, (b.store.read e.target).inputChanges e.payload stamp⟩).1,
        .ok (b.apply ⟨e.target, origin, (b.store.read e.target).inputChanges e.payload stamp⟩).2) := by
  unfold applyInput
  cases takes : (b.store.read e.target).acceptsInput with
  | false =>
    have nothing : (b.store.read e.target).inputChanges e.payload stamp = [] := by
      unfold TaskState.inputChanges
      rw [takes]
      rfl
    rw [nothing]
    rfl
  | true =>
    have effect : b.inputEffect e stamp =
        (b.matching, .ok ((b.store.read e.target).inputChanges e.payload stamp)) := by
      unfold inputEffect
      split
      · rename_i same
        exact absurd (congrArg InputPayload.task same) unmatched
      · rename_i same
        exact absurd (congrArg InputPayload.task same) unmatched
      · rfl
    rw [effect]
    cases (b.store.read e.target).inputChanges e.payload stamp <;> rfl

end Battery

/-- Taking note of the stamps of a batch: the clock is behind none of them, nor behind where it was. -/
theorem StampClock.foldl_observe (changes : List FieldChange) (clock : StampClock) :
    (changes.foldl (fun clock c => clock.observe c.stamp) clock).writer = clock.writer ∧
      clock.moment ≤ (changes.foldl (fun clock c => clock.observe c.stamp) clock).moment ∧
      ∀ c ∈ changes, c.stamp.moment ≤ (changes.foldl (fun clock c => clock.observe c.stamp) clock).moment := by
  induction changes generalizing clock with
  | nil => exact ⟨rfl, Nat.le_refl _, nofun⟩
  | cons c rest ih =>
    obtain ⟨writer, later, seen⟩ := ih (clock.observe c.stamp)
    obtain ⟨later', seen'⟩ := clock.moment_observe c.stamp
    refine ⟨writer.trans (clock.writer_observe c.stamp), Nat.le_trans later' later, fun d mem => ?_⟩
    rcases List.mem_cons.mp mem with rfl | mem
    · exact Nat.le_trans seen' later
    · exact seen d mem

namespace Reconciler

variable (r : Reconciler) (b : Battery)

@[simp] theorem clock_count (f : ReconcileStats → ReconcileStats) : (r.count f).clock = r.clock := rfl

@[simp] theorem remoteHigh_count (f : ReconcileStats → ReconcileStats) : (r.count f).remoteHigh = r.remoteHigh := rfl

@[simp] theorem clock_observe (s : Stamp) : (r.observe s).clock = r.clock.observe s := rfl

@[simp] theorem remoteHigh_observe (s : Stamp) : (r.observe s).remoteHigh = r.remoteHigh := rfl

variable {r b} {e : InputEvent}

/-- A local input is stamped by the clock and applied; it is forwarded with the changes that took effect, if any did
and the task is shared. -/
theorem onLocalInput_spec (unmatched : e.payload.task ≠ .matching) {now : SessionTime} {m : Mutation}
    (mutation : m = ⟨e.target, .localInput e.origin,
      (b.store.read e.target).inputChanges e.payload (r.clock.issue now).1⟩) :
    (r.onLocalInput b e now).1.clock = (r.clock.issue now).2 ∧
      (r.onLocalInput b e now).1.remoteHigh = r.remoteHigh ∧
      (r.onLocalInput b e now).2.1 = (b.apply m).1 ∧
      (r.onLocalInput b e now).2.2 =
        if (b.apply m).2.isNoop = true ∨ ((b.apply m).1.store.read e.target).isShared = false then []
        else [.forward e (r.clock.issue now).1, .delta e.target (b.apply m).2.applied] := by
  unfold onLocalInput
  dsimp only
  rw [b.applyInput_eq unmatched, ← mutation]
  dsimp only
  cases (b.apply m).2.isNoop with
  | true => exact ⟨rfl, rfl, rfl, rfl⟩
  | false =>
    cases ((b.apply m).1.store.read e.target).isShared with
    | true => exact ⟨rfl, rfl, rfl, by simp⟩
    | false => exact ⟨rfl, rfl, rfl, rfl⟩

/-- A forwarded input of the right sender that was not seen before is applied under its stamp. -/
theorem onForward_spec (unmatched : e.payload.task ≠ .matching) {stamp : Stamp}
    (shared : (b.store.read e.target).isShared = true)
    (writer : stamp.writer = .participant e.origin) (fresh : r.isRepeated e.origin stamp = false) :
    (r.onRemoteMessage b e.origin (.forward e stamp)).1.clock = r.clock.observe stamp ∧
      (r.onRemoteMessage b e.origin (.forward e stamp)).1.remoteHigh = r.remoteHigh.insert e.origin stamp ∧
      (r.onRemoteMessage b e.origin (.forward e stamp)).2.1 =
        (b.apply ⟨e.target, .remoteInput e.origin,
          (b.store.read e.target).inputChanges e.payload stamp⟩).1 := by
  have genuine : ¬ (e.origin ≠ e.origin ∨ stamp.writer ≠ .participant e.origin) :=
    not_or.mpr ⟨fun h => h rfl, fun h => h writer⟩
  simp only [onRemoteMessage, SyncMessage.task?, Option.filter_some, shared, Bool.not_true, Bool.false_eq_true,
    if_false, onRemoteInput, if_neg genuine, fresh, b.applyInput_eq unmatched]
  exact ⟨rfl, rfl, trivial⟩

/-- A forwarded input that was seen before does nothing. -/
theorem onRepeated_spec {stamp : Stamp} (shared : (b.store.read e.target).isShared = true)
    (writer : stamp.writer = .participant e.origin) (repeated : r.isRepeated e.origin stamp = true) :
    (r.onRemoteMessage b e.origin (.forward e stamp)).1.clock = r.clock ∧
      (r.onRemoteMessage b e.origin (.forward e stamp)).1.remoteHigh = r.remoteHigh ∧
      (r.onRemoteMessage b e.origin (.forward e stamp)).2.1 = b := by
  have genuine : ¬ (e.origin ≠ e.origin ∨ stamp.writer ≠ .participant e.origin) :=
    not_or.mpr ⟨fun h => h rfl, fun h => h writer⟩
  simp only [onRemoteMessage, SyncMessage.task?, Option.filter_some, shared, Bool.not_true, Bool.false_eq_true,
    if_false, onRemoteInput, if_neg genuine, repeated, if_true]
  exact ⟨rfl, rfl, trivial⟩

/-- A delta is applied, and its stamps are taken note of. -/
theorem onDelta_spec {t : TaskId} (sender : ParticipantId) (changes : List FieldChange)
    (shared : (b.store.read t).isShared = true) :
    (r.onRemoteMessage b sender (.delta t changes)).1.clock =
        changes.foldl (fun clock c => clock.observe c.stamp) r.clock ∧
      (r.onRemoteMessage b sender (.delta t changes)).1.remoteHigh = r.remoteHigh ∧
      (r.onRemoteMessage b sender (.delta t changes)).2.1 = (b.apply ⟨t, .remoteDelta sender, changes⟩).1 := by
  have observed : ∀ (changes : List FieldChange) (r : Reconciler),
      (changes.foldl (fun r c => r.observe c.stamp) r).clock =
          changes.foldl (fun clock c => clock.observe c.stamp) r.clock ∧
        (changes.foldl (fun r c => r.observe c.stamp) r).remoteHigh = r.remoteHigh := by
    intro changes
    induction changes with
    | nil => exact fun r => ⟨rfl, rfl⟩
    | cons c rest ih => exact fun r => ih (r.observe c.stamp)
  simp only [onRemoteMessage, SyncMessage.task?, Option.filter_some, shared, Bool.not_true, Bool.false_eq_true,
    if_false, onDelta]
  exact ⟨(observed changes r).1, (observed changes r).2, trivial⟩

end Reconciler

end Tandem
