import Tandem.Proofs.Reconcile.Convergence
import Tandem.Proofs.Reconcile.Locality
import Tandem.Proofs.Reconcile.Replays
/-!
# Who is named

A task names the participant who is answerable for the last change to it.  Its fields go by the stamps, and so they come
to be the same on both sides.  The name goes by what comes last: whatever takes effect on a side at all, be it a single
field with an old stamp, makes the task name its participant there (`TaskState.Attributed`).

So it depends on how the inputs of the two participants cross.  `Setting.lastEntered?` finds the last input about a task
that took effect where it was entered.  Afterwards its side only hears of the other participant, and the other side only
of this one, and each of the two names what it hears last (`Setting.named_after`).
`Setting.named_alike_iff` says when these two are the same.

The tracking task is an exception: participants write a single field of it, the cursor, so that whoever is named has
written the cursor last, and the cursor goes by the stamps (`Setting.tracking_named_alike`).
-/

namespace Tandem

/-! ## One change -/

/-- A state of a task before and after something for which a participant is answerable: it is left as it is, or it has a
new version and names the participant. -/
inductive TaskState.Attributed (p : ParticipantId) (s : TaskState) : TaskState → Prop where
  | still : Attributed p s s
  | changed {s' : TaskState} (version : s'.version = s.version + 1) (named : s'.lastParticipant = some p) :
      Attributed p s s'

namespace TaskState

variable {p : ParticipantId} {s s' : TaskState}

theorem attributed_apply (s : TaskState) {origin : Origin} (by_ : origin.participant? = some p)
    (changes : List FieldChange) : s.Attributed p (s.apply origin changes).1 := by
  unfold apply
  dsimp only
  split
  · exact .still
  · refine .changed rfl ?_
    rw [by_]
    rfl

/-- The script is nobody's. -/
theorem lastParticipant_apply_scenario (s : TaskState) (changes : List FieldChange) :
    (s.apply .scenario changes).1.lastParticipant = s.lastParticipant := by
  unfold apply
  dsimp only
  split <;> rfl

theorem Attributed.named (h : s.Attributed p s') :
    s'.lastParticipant = if s'.version = s.version then s.lastParticipant else some p := by
  cases h with
  | still => exact (if_pos rfl).symm
  | changed version named =>
    rw [if_neg (by omega)]
    exact named

end TaskState

namespace Battery

variable {b : Battery} {p : ParticipantId}

theorem attributed_apply (b : Battery) (m : Mutation) (by_ : m.origin.participant? = some p) (t : TaskId) :
    (b.store.read t).Attributed p ((b.apply m).1.store.read t) := by
  show (b.store.read t).Attributed p ((b.store.apply m).1.read t)
  rw [Store.read_apply]
  split
  · rename_i here
    subst here
    exact (b.store.read m.task).attributed_apply by_ m.changes
  · exact .still

theorem attributed_applyInput (b : Battery) (e : InputEvent) (stamp : Stamp) {origin : Origin}
    (by_ : origin.participant? = some p) (t : TaskId) :
    (b.store.read t).Attributed p ((b.applyInput e stamp origin).1.store.read t) := by
  obtain ⟨changes, -, store, -⟩ := b.writes_applyInput e stamp origin
  rw [store]
  exact b.attributed_apply ⟨e.target, origin, changes⟩ by_ t

/-- An input with an outcome leads to a new version of its task. -/
theorem version_applyInput (b : Battery) (e : InputEvent) (stamp : Stamp) (origin : Origin) (outcome : Outcome)
    (applied : (b.applyInput e stamp origin).2 = .ok outcome) (effective : outcome.isNoop = false) :
    ((b.applyInput e stamp origin).1.store.read e.target).version = (b.store.read e.target).version + 1 := by
  unfold applyInput at applied ⊢
  split at applied
  · cases applied
    cases effective
  · rename_i takes
    rw [if_neg takes]
    generalize b.inputEffect e stamp = effect at applied ⊢
    obtain ⟨matching, fault | changes⟩ := effect
    · cases applied
    · cases changes with
      | nil =>
        cases applied
        cases effective
      | cons c rest =>
        cases applied
        have noop := b.store.outcome_apply ⟨e.target, origin, c :: rest⟩
        show ((b.store.apply ⟨e.target, origin, c :: rest⟩).1.read e.target).version = _
        rw [Store.read_apply, if_pos rfl]
        exact TaskState.version_apply (noop ▸ effective)

theorem lastParticipant_run (b : Battery) (c : ScenarioCommand) (t : TaskId) :
    ((b.run c).1.store.read t).lastParticipant = (b.store.read t).lastParticipant := by
  rw [b.read_run]
  split
  · exact TaskState.lastParticipant_apply_scenario _ _
  · rfl

end Battery

/-! ## One side -/

namespace Side

/-- The state of a task on a side. -/
def task (a : Side) (t : TaskId) : TaskState := a.battery.store.read t

/-- The participant whom a task names on a side. -/
def named (a : Side) (t : TaskId) : Option ParticipantId := (a.task t).lastParticipant

variable {a : Side} {t : TaskId}

theorem named_playNext (a : Side) (script : List ScenarioCommand) (t : TaskId) :
    (a.playNext script).named t = a.named t := by
  unfold playNext
  cases script[a.played]? with
  | none => rfl
  | some c => exact a.battery.lastParticipant_run c t

theorem attributed_input (a : Side) (e : InputEvent) (now : SessionTime) (t : TaskId) :
    (a.task t).Attributed e.origin ((a.input e now).task t) := by
  obtain ⟨-, -, battery, -⟩ := a.reconciler.onLocalInput_outcome a.battery e now
  show (a.task t).Attributed e.origin ((a.reconciler.onLocalInput a.battery e now).2.1.store.read t)
  rw [battery]
  exact a.battery.attributed_applyInput e _ rfl t

theorem attributed_take (a : Side) (sender : ParticipantId) (m : SyncMessage) (t : TaskId) :
    (a.task t).Attributed sender ((a.take sender m).task t) := by
  show (a.battery.store.read t).Attributed sender
    ((a.reconciler.onRemoteMessage a.battery sender m).2.1.store.read t)
  rcases a.reconciler.onRemoteMessage_cases a.battery sender m with
    ⟨-, battery⟩ | ⟨e, stamp, -, -, battery⟩ | ⟨u, changes, -, -, battery⟩
  · rw [battery]
    exact .still
  · rw [battery]
    exact a.battery.attributed_applyInput e stamp rfl t
  · rw [battery]
    exact a.battery.attributed_apply ⟨u, .remoteDelta sender, changes⟩ rfl t

/-- What is said of an input is about its task, and is said only if the task has been changed. -/
theorem of_mem_sent_input {e : InputEvent} {now : SessionTime} {m : SyncMessage} (mem : m ∈ (a.input e now).sent) :
    m ∈ a.sent ∨ m.task? = some e.target ∧ ((a.input e now).task e.target).version ≠ (a.task e.target).version := by
  have mem : m ∈ a.sent ++ (a.reconciler.onLocalInput a.battery e now).2.2 := mem
  rcases List.mem_append.mp mem with before | said
  · exact Or.inl before
  · refine Or.inr ?_
    show m.task? = some e.target ∧
      ((a.reconciler.onLocalInput a.battery e now).2.1.store.read e.target).version ≠ (a.task e.target).version
    have effective := a.battery.version_applyInput e (a.reconciler.clock.issue now).1 (.localInput e.origin)
    unfold Reconciler.onLocalInput at said ⊢
    dsimp only at said ⊢
    generalize a.battery.applyInput e _ (.localInput e.origin) = result at said effective ⊢
    obtain ⟨b, fault | outcome⟩ := result
    · exact absurd said List.not_mem_nil
    · dsimp only at said ⊢
      split at said
      · exact absurd said List.not_mem_nil
      · rename_i changed
        rw [if_neg changed]
        split at said
        · exact absurd said List.not_mem_nil
        · rename_i shared
          rw [if_neg shared]
          have version := effective outcome rfl (Bool.eq_false_iff.mpr changed)
          refine ⟨?_, Nat.ne_of_gt (version ▸ Nat.lt_succ_self _)⟩
          rcases List.mem_pair.mp said with rfl | rfl <;> rfl

/-- Only inputs are told. -/
theorem sent_playNext (a : Side) (script : List ScenarioCommand) : (a.playNext script).sent = a.sent := by
  unfold playNext
  split <;> rfl

namespace Takes

variable {a' : Side} {sender : ParticipantId} {messages : List SyncMessage}

theorem attributed (h : a.Takes sender messages a') (t : TaskId) : (a.task t).Attributed sender (a'.task t) := by
  cases h with
  | none => exact .still
  | one => exact a.attributed_take sender _ t

/-- Messages about other tasks leave a task. -/
theorem task_eq (h : a.Takes sender messages a') (others : ∀ m ∈ messages, m.task? ≠ some t) :
    a'.task t = a.task t := by
  cases h with
  | none => rfl
  | one mem => exact a.reconciler.read_onRemoteMessage_of_ne a.battery sender (others _ mem)

theorem sent_eq (h : a.Takes sender messages a') : a'.sent = a.sent := by
  cases h <;> rfl

end Takes

end Side

/-! ## The last entry -/

namespace SideMove

/-- A side takes a message, for the first time or again. -/
def isTaking (r : Role) : SideMove → Bool
  | .deliver s | .redeliver s _ => s = r
  | _ => false

end SideMove

namespace Setting

/-- An input that took effect where it was entered: on which side that was, the two sides afterwards, and what happens
from then on. -/
structure Entry where
  side : Role
  sides : Ends Side
  rest : List SideMove

section

variable (w : Setting) (t : TaskId)

/-- Whether a move changes a task on a side. -/
def changes (r : Role) (x : Ends Side) (m : SideMove) : Bool :=
  (((w.perform x m).get r).task t).version ≠ ((x.get r).task t).version

/-- The side on which a move is an input that changes a task. -/
def entered? (x : Ends Side) (m : SideMove) : Option Role :=
  match m with
  | .input r .. => if w.changes t r x m then some r else none
  | _ => none

/-- Whether a message that a side takes in a run changes a task there. -/
def hears (r : Role) (x : Ends Side) : List SideMove → Bool
  | [] => false
  | m :: rest => m.isTaking r && w.changes t r x m || hears r (w.perform x m) rest

/-- The last input in a run that changes a task where it is entered. -/
def lastEntered? (x : Ends Side) : List SideMove → Option Entry
  | [] => none
  | m :: rest =>
    (lastEntered? (w.perform x m) rest).or ((w.entered? t x m).map (⟨·, w.perform x m, rest⟩))

end

variable {w : Setting} {t : TaskId} {x : Ends Side} {m : SideMove} {moves : List SideMove} {r : Role}

/-- What a move that takes a message does to a side. -/
theorem takes_perform (taking : m.isTaking r = true) :
    (x.get r).Takes (w.participants.get r.other) (x.get r.other).sent ((w.perform x m).get r) := by
  cases m with
  | play | input => cases taking
  | deliver s =>
    obtain rfl := of_decide_eq_true taking
    rw [perform, Ends.get_set_self]
    exact Side.takes_takeNext _ _ _
  | redeliver s n =>
    obtain rfl := of_decide_eq_true taking
    rw [perform, Ends.get_set_self]
    exact Side.takes_takeAgain _ _ _ n

theorem named_of_attributed {p : ParticipantId} (h : ((x.get r).task t).Attributed p (((w.perform x m).get r).task t)) :
    ((w.perform x m).get r).named t = if w.changes t r x m then some p else (x.get r).named t := by
  have named := h.named
  unfold changes Side.named
  rw [named]
  split
  · rename_i same
    simp [same]
  · rename_i other
    simp [other]

/-- Who enters something is answerable for what it changes on the own side. -/
theorem named_input (r : Role) (captured now : SessionTime) (payload : InputPayload) :
    ((w.perform x (.input r captured now payload)).get r).named t =
      if w.changes t r x (.input r captured now payload) then some (w.participants.get r) else (x.get r).named t := by
  refine named_of_attributed ?_
  rw [perform, Ends.get_set_self]
  exact (x.get r).attributed_input (.captured (w.participants.get r) captured payload) now t

/-- For what a message changes it is the participant of the other side. -/
theorem named_taking (taking : m.isTaking r = true) : ((w.perform x m).get r).named t =
    if w.changes t r x m then some (w.participants.get r.other) else (x.get r).named t :=
  named_of_attributed ((takes_perform taking).attributed t)

/-- Nobody else is named by a move. -/
theorem named_aside (taking : m.isTaking r = false) (entered : w.entered? t x m ≠ some r) :
    ((w.perform x m).get r).named t = (x.get r).named t := by
  -- A move of the other side leaves this one.
  have still : ∀ {s : Role} {a : Side}, s ≠ r → ((x.set s a).get r).named t = (x.get r).named t := by
    intro s a elsewhere
    rw [Ends.get_set, if_neg elsewhere]
  cases m with
  | play s =>
    by_cases here : s = r
    · subst here
      rw [perform, Ends.get_set_self, Side.named_playNext]
    · exact still here
  | input s captured now payload =>
    by_cases here : s = r
    · subst here
      have unchanged : ¬ w.changes t s x (.input s captured now payload) = true :=
        fun changed => entered (if_pos changed)
      rw [named_input, if_neg unchanged]
    · exact still here
  | deliver s | redeliver s n => exact still (of_decide_eq_false taking)

/-- An input that changes a task names its participant. -/
theorem named_entered (entered : w.entered? t x m = some r) :
    ((w.perform x m).get r).named t = some (w.participants.get r) := by
  cases m with
  | input s captured now payload =>
    obtain ⟨changed, same⟩ := Option.ite_none_right_eq_some.mp entered
    obtain rfl := Option.some.inj same
    rw [named_input, if_pos changed]
  | play | deliver | redeliver => cases entered

/-- A run in which no input changes a task: a side names the participant of the other side if it hears of the other
side, and whomever it has named otherwise. -/
theorem named_foldl (none : w.lastEntered? t x moves = none) (r : Role) : ((moves.foldl w.perform x).get r).named t =
    if w.hears t r x moves then some (w.participants.get r.other) else (x.get r).named t := by
  induction moves generalizing x with
  | nil => rfl
  | cons m rest ih =>
    obtain ⟨later, now⟩ := Option.or_eq_none_iff.mp none
    have unentered : w.entered? t x m ≠ some r := by
      rw [Option.map_eq_none_iff.mp now]
      nofun
    rw [List.foldl_cons, ih later, hears]
    cases w.hears t r (w.perform x m) rest with
    | true => simp
    | false =>
      rw [Bool.or_false, if_neg Bool.false_ne_true]
      cases taking : m.isTaking r with
      | true => exact named_taking taking
      | false => exact named_aside taking unentered

/-- The last entry: the side names its participant when it has been entered, and no other follows. -/
theorem lastEntered?_spec {y : Entry} (last : w.lastEntered? t x moves = some y) :
    moves.foldl w.perform x = y.rest.foldl w.perform y.sides ∧ w.lastEntered? t y.sides y.rest = none ∧
      (y.sides.get y.side).named t = some (w.participants.get y.side) := by
  induction moves generalizing x with
  | nil => cases last
  | cons m rest ih =>
    rw [lastEntered?] at last
    cases later : w.lastEntered? t (w.perform x m) rest with
    | some z =>
      rw [later] at last
      cases last
      exact ih later
    | none =>
      rw [later, Option.none_or] at last
      obtain ⟨r, entered, rfl⟩ := Option.map_eq_some_iff.mp last
      exact ⟨rfl, later, named_entered entered⟩

/-- Nothing has been said about a task. -/
def Unsaid (t : TaskId) (x : Ends Side) : Prop := ∀ r, ∀ m ∈ (x.get r).sent, m.task? ≠ some t

/-- As long as no input changes a task, nothing is said about it. -/
theorem Unsaid.perform (h : Unsaid t x) (none : w.entered? t x m = none) : Unsaid t (w.perform x m) := by
  have set : ∀ s {a : Side}, (∀ m ∈ a.sent, m.task? ≠ some t) → Unsaid t (x.set s a) := by
    intro s a moved r
    rw [Ends.get_set]
    split
    · exact moved
    · exact h r
  have silent : ∀ s {a : Side}, a.sent = (x.get s).sent → Unsaid t (x.set s a) := by
    intro s a same
    refine set s ?_
    rw [same]
    exact h s
  cases m with
  | play s => exact silent s (Side.sent_playNext _ _)
  | input s captured now payload =>
    refine set s fun m mem => ?_
    rcases Side.of_mem_sent_input mem with before | ⟨task, changed⟩
    · exact h s m before
    · rw [task]
      rintro same
      obtain rfl : payload.task = t := Option.some.inj same
      have effective : w.changes payload.task s x (.input s captured now payload) = true := by
        refine decide_eq_true ?_
        rw [Setting.perform, Ends.get_set_self]
        exact changed
      rw [entered?, if_pos effective] at none
      cases none
  | deliver s => exact silent s (Side.takes_takeNext _ _ _).sent_eq
  | redeliver s n => exact silent s (Side.takes_takeAgain _ _ _ n).sent_eq

/-- And no message changes it. -/
theorem Unsaid.unchanged (h : Unsaid t x) (taking : m.isTaking r = true) : w.changes t r x m = false :=
  decide_eq_false (not_not_intro (congrArg TaskState.version ((takes_perform taking).task_eq (h r.other))))

/-- Nobody is named before somebody has entered something. -/
theorem Unsaid.hears (h : Unsaid t x) (none : w.lastEntered? t x moves = none) (r : Role) :
    w.hears t r x moves = false := by
  induction moves generalizing x with
  | nil => rfl
  | cons m rest ih =>
    obtain ⟨later, now⟩ := Option.or_eq_none_iff.mp none
    rw [Setting.hears, ih (h.perform (Option.map_eq_none_iff.mp now)) later, Bool.or_false]
    cases taking : m.isTaking r with
    | true => exact h.unchanged taking
    | false => rfl

/-- **Whom the two sides name** after a run: the side of the last entry its participant, unless it hears of the other
one afterwards, and the other side that participant if it hears of it afterwards, and otherwise whomever it has named
then. -/
theorem named_after (w : Setting) (t : TaskId) (moves : List SideMove) :
    match w.lastEntered? t w.start moves with
    | none => ∀ r, ((w.after moves).get r).named t = none
    | some y =>
      ((w.after moves).get y.side).named t =
          some (w.participants.get (if w.hears t y.side y.sides y.rest then y.side.other else y.side)) ∧
        ((w.after moves).get y.side.other).named t =
          if w.hears t y.side.other y.sides y.rest then some (w.participants.get y.side)
          else (y.sides.get y.side.other).named t := by
  cases last : w.lastEntered? t w.start moves with
  | none =>
    intro r
    have unsaid : Unsaid t w.start := by
      intro r
      cases r <;> exact List.forall_mem_nil _
    rw [after, named_foldl last, unsaid.hears last, if_neg Bool.false_ne_true]
    have start : ((w.start.get r).task t) = TaskState.initial t := by
      cases r <;> exact PerTask.get_ofFn ..
    exact congrArg TaskState.lastParticipant start
  | some y =>
    obtain ⟨same, none, named⟩ := lastEntered?_spec last
    dsimp only
    rw [after, same, named_foldl none, named_foldl none, named, Role.other_other]
    refine ⟨?_, rfl⟩
    split <;> rfl

/-- **When both sides name the same participant.** -/
theorem named_alike_iff (distinct : w.participants.host ≠ w.participants.guest) (t : TaskId) (moves : List SideMove) :
    ((w.after moves).get .host).named t = ((w.after moves).get .guest).named t ↔
      ∀ y ∈ w.lastEntered? t w.start moves,
        if w.hears t y.side y.sides y.rest then
          w.hears t y.side.other y.sides y.rest = false ∧
            (y.sides.get y.side.other).named t = some (w.participants.get y.side.other)
        else
          w.hears t y.side.other y.sides y.rest = true ∨
            (y.sides.get y.side.other).named t = some (w.participants.get y.side) := by
  have after := w.named_after t moves
  cases last : w.lastEntered? t w.start moves with
  | none =>
    rw [last] at after
    refine iff_of_true ((after .host).trans (after .guest).symm) fun y mem => absurd mem (Option.not_mem_none y)
  | some y =>
    rw [last] at after
    obtain ⟨here, there⟩ := after
    have either : ((w.after moves).get .host).named t = ((w.after moves).get .guest).named t ↔
        ((w.after moves).get y.side).named t = ((w.after moves).get y.side.other).named t := by
      cases y.side with
      | host => exact Iff.rfl
      | guest => exact eq_comm
    have differ := participants_ne distinct y.side
    rw [either, here, there]
    simp only [Option.mem_def, Option.some.injEq, forall_eq']
    cases w.hears t y.side y.sides y.rest <;> cases w.hears t y.side.other y.sides y.rest <;>
      simp [differ, eq_comm]

/-- Both sides play the script, both participants tune a radio, the guest first though by the later clock, and both
sides take what they are told. -/
def crossing (guest host : String) : List SideMove :=
  [.play .host, .play .guest, .input .guest ⟨1500⟩ ⟨1500⟩ (.communicationTune guest .zero),
    .input .host ⟨1000⟩ ⟨1000⟩ (.communicationTune host .zero), .deliver .guest, .deliver .guest, .deliver .host,
    .deliver .host]

/-- Both tune the same radio, the host last.  The host hears of the guest afterwards.  The guest does not hear of the
host, since the radio is stamped higher there, and so both name the guest. -/
theorem named_alike_iff_sameRadio : radios.participants.host ≠ radios.participants.guest ∧
    ((radios.after (crossing "com1" "com1")).get .host).named .communications =
      ((radios.after (crossing "com1" "com1")).get .guest).named .communications := by
  have distinct : radios.participants.host ≠ radios.participants.guest := by decide
  refine ⟨distinct, (named_alike_iff distinct .communications (crossing "com1" "com1")).mpr ?_⟩
  decide +kernel

theorem admits_crossing : radios.Admits (crossing "com1" "com2") where
  distinct := by decide
  shareable c mem := by
    obtain rfl := List.mem_singleton.mp mem
    exact ⟨nofun, nofun⟩
  unmatched r captured now payload mem := by
    simp only [crossing, List.mem_cons, List.not_mem_nil, or_false, reduceCtorEq, false_or] at mem
    rcases mem with same | same <;> cases same <;> decide
  room := by
    have within : ∀ n ≤ (crossing "com1" "com2").length,
        ((radios.after ((crossing "com1" "com2").take n)).get .host).reconciler.clock.HasRoom ∧
          ((radios.after ((crossing "com1" "com2").take n)).get .guest).reconciler.clock.HasRoom := by
      decide +kernel
    exact forall_take (P := fun moves => ∀ r, ((radios.after moves).get r).reconciler.clock.HasRoom)
      fun n upTo => Role.forall_of .host (within n upTo).1 (within n upTo).2

theorem isSettled_crossing : radios.IsSettled (radios.after (crossing "com1" "com2")) := by
  have settled : (((radios.after (crossing "com1" "com2")).get .host).played = 1 ∧
      ((radios.after (crossing "com1" "com2")).get .host).taken =
        ((radios.after (crossing "com1" "com2")).get .guest).sent.length) ∧
      ((radios.after (crossing "com1" "com2")).get .guest).played = 1 ∧
        ((radios.after (crossing "com1" "com2")).get .guest).taken =
          ((radios.after (crossing "com1" "com2")).get .host).sent.length := by
    decide +kernel
  exact Role.forall_of .host settled.1 settled.2

/-- The names may differ in the end: if each tunes a radio of its own, each side hears of the other one last, and names
its participant. -/
theorem not_named_alike_crossing : ¬ ∀ (w : Setting) (moves : List SideMove), w.Admits moves →
    w.IsSettled (w.after moves) → ∀ t,
      ((w.after moves).get .host).named t = ((w.after moves).get .guest).named t := by
  intro alike
  have differ : ((radios.after (crossing "com1" "com2")).get .host).named .communications ≠
      ((radios.after (crossing "com1" "com2")).get .guest).named .communications := by
    decide +kernel
  exact differ (alike radios _ admits_crossing isSettled_crossing .communications)

end Setting

/-! ## The cursor -/

/-- The tracking task names whoever has written its cursor. -/
def TaskState.NamesMover (s : TaskState) : Prop :=
  s.lastParticipant = (s.cell? "cursor").bind (·.stamp.writer.participant?)

/-- What an input of a participant to the tracking task comes to: a write to the cursor, or nothing. -/
inductive CursorWrites (p : ParticipantId) : List FieldChange → Prop where
  | nothing : CursorWrites p []
  | cursor (v : FieldValue) {stamp : Stamp} (writer : stamp.writer = .participant p) :
      CursorWrites p [⟨"cursor", v, stamp⟩]

namespace CursorWrites

variable {p : ParticipantId} {changes part : List FieldChange}

theorem of_input {payload : InputPayload} {stamp : Stamp} (h : InputWrites stamp payload changes)
    (task : payload.task = .tracking) (writer : stamp.writer = .participant p) : CursorWrites p changes := by
  cases h with
  | nothing => exact .nothing
  | move => exact .cursor _ writer
  | light | scale | tune | toggle => cases task

theorem sublist (h : CursorWrites p changes) (sub : part.Sublist changes) : CursorWrites p part := by
  cases h with
  | nothing =>
    rw [List.sublist_nil.mp sub]
    exact .nothing
  | cursor v writer =>
    rcases List.sublist_singleton.mp sub with rfl | rfl
    · exact .nothing
    · exact .cursor v writer

end CursorWrites

namespace TaskState.NamesMover

variable {s : TaskState}

/-- Who writes the cursor is named, and who does not is not. -/
theorem apply (h : s.NamesMover) {p : ParticipantId} {changes : List FieldChange} (writes : CursorWrites p changes)
    {origin : Origin} (by_ : origin.participant? = some p) : (s.apply origin changes).1.NamesMover := by
  cases writes with
  | nothing => exact h
  | @cursor v stamp writer =>
    cases admitted : admits (s.cell? "cursor") ⟨"cursor", v, stamp⟩ with
    | false =>
      rw [apply_eq_self (List.forall_mem_singleton.mpr admitted)]
      exact h
    | true =>
      have written : (s.apply origin [⟨"cursor", v, stamp⟩]).1.cell? "cursor" = some ⟨v, stamp⟩ := by
        rw [cell?_apply]
        exact if_pos admitted
      have effective : (s.apply origin [⟨"cursor", v, stamp⟩]).2.isNoop = false := by
        refine Bool.eq_false_iff.mpr fun noop => ?_
        have refused := (s.isNoop_apply_iff _ _).mp noop _ List.mem_cons_self
        rw [admitted] at refused
        cases refused
      have named := (s.attributed_apply by_ [⟨"cursor", v, stamp⟩]).named
      rw [version_apply effective, if_neg (Nat.succ_ne_self _)] at named
      rw [NamesMover, named, written]
      exact (congrArg Writer.participant? writer).symm

/-- The script leaves the cursor and the name. -/
theorem script (h : s.NamesMover) {changes : List FieldChange} (others : ∀ c ∈ changes, c.key ≠ "cursor") :
    (s.apply .scenario changes).1.NamesMover := by
  have none : changes.filter (fun c => c.key = "cursor") = [] :=
    List.filter_eq_nil_iff.mpr fun c mem => by simpa using others c mem
  unfold NamesMover
  rw [lastParticipant_apply_scenario, cell?_apply, none]
  exact h

end TaskState.NamesMover

/-- What a participant tells is an input of the participant, and what it has written, as far as the cursor goes. -/
def SyncMessage.Steers (p : ParticipantId) : SyncMessage → Prop
  | .forward e stamp => e.target = e.payload.task ∧ stamp.writer = .participant p
  | .delta .tracking changes => CursorWrites p changes
  | _ => True

/-- An input, own or forwarded. -/
theorem Battery.namesMover_applyInput {b : Battery} (h : (b.store.read .tracking).NamesMover) {e : InputEvent}
    (aimed : e.target = e.payload.task) {stamp : Stamp} {p : ParticipantId} (writer : stamp.writer = .participant p)
    {origin : Origin} (by_ : origin.participant? = some p) :
    ((b.applyInput e stamp origin).1.store.read .tracking).NamesMover := by
  by_cases target : e.target = .tracking
  · have task := aimed.symm.trans target
    have writes : CursorWrites p ((b.store.read .tracking).inputChanges e.payload stamp) :=
      .of_input (TaskState.inputWrites _ _ _) task writer
    rw [b.applyInput_eq (by rw [task]; nofun), target]
    show ((b.store.apply _).1.read .tracking).NamesMover
    rw [Store.read_apply, if_pos rfl]
    exact h.apply writes by_
  · rw [b.read_applyInput_of_ne target]
    exact h

/-- A command does not set the cursor. -/
def ScenarioCommand.SparesCursor (c : ScenarioCommand) : Prop :=
  ∀ raw, c.payload ≠ .set (.task .tracking) "cursor" raw

/-- A command of the script. -/
theorem Battery.namesMover_run {b : Battery} (h : (b.store.read .tracking).NamesMover) {c : ScenarioCommand}
    (spares : c.SparesCursor) : ((b.run c).1.store.read .tracking).NamesMover := by
  rw [b.read_run]
  split
  · rename_i target
    refine h.script fun d mem same => ?_
    cases (scriptWrite target mem).2 with
    | action listed =>
      have none : actionType? "cursor" = none := by decide
      rw [same, none] at listed
      cases listed
    | @parameter t key raw command address =>
      obtain rfl : t = .tracking := by
        rw [CommandPayload.task?, command] at target
        exact Option.some.inj target
      rw [same] at address
      cases alias_ : (b.store.read .tracking).task.radioAlias? key with
      | none =>
        rw [alias_] at address
        exact spares raw (address ▸ command)
      | some k =>
        rw [alias_] at address
        obtain ⟨-, radio, -, rfl⟩ := TaskId.of_radioAlias? alias_
        exact absurd (congrArg String.toList address) (by simp [radioFrequencyKey, toString_string])
    | lamp _ address =>
      rw [same] at address
      exact absurd (congrArg String.toList address) (by simp [Gauge.address, toString_string])
  · exact h

/-- What holds of the side of a participant at any time. -/
structure Side.Steered (p : ParticipantId) (a : Side) : Prop where
  writer : a.reconciler.clock.writer = p
  mover : (a.battery.store.read .tracking).NamesMover
  sent : ∀ m ∈ a.sent, m.Steers p

namespace Side.Steered

variable {p q : ParticipantId} {a : Side}

theorem playNext (h : a.Steered p) {script : List ScenarioCommand}
    (spares : ∀ c ∈ script, c.SparesCursor) : (a.playNext script).Steered p := by
  unfold Side.playNext
  cases next : script[a.played]? with
  | none => exact h
  | some c =>
    exact ⟨(StampClock.writer_observe _ _).trans h.writer,
      Battery.namesMover_run h.mover (spares c (List.mem_of_getElem? next)), h.sent⟩

theorem input (h : a.Steered p) {e : InputEvent} (aimed : e.target = e.payload.task) (origin : e.origin = p)
    (now : SessionTime) : (a.input e now).Steered p := by
  have writer := (a.reconciler.clock.writer_issue now).1.trans (congrArg Writer.participant h.writer)
  obtain ⟨clock, -, battery, said⟩ := a.reconciler.onLocalInput_outcome a.battery e now
  refine ⟨?_, ?_, ?_⟩
  · show (a.reconciler.onLocalInput a.battery e now).1.clock.writer = p
    rw [clock, (a.reconciler.clock.writer_issue now).2, h.writer]
  · show ((a.reconciler.onLocalInput a.battery e now).2.1.store.read .tracking).NamesMover
    rw [battery]
    exact Battery.namesMover_applyInput h.mover aimed writer (congrArg some origin)
  · show ∀ m ∈ a.sent ++ (a.reconciler.onLocalInput a.battery e now).2.2, m.Steers p
    refine List.forall_mem_append.mpr ⟨h.sent, ?_⟩
    rcases said with none | ⟨outcome, applied, said⟩
    · rw [none]
      exact List.forall_mem_nil _
    · rw [said]
      refine List.forall_mem_cons.mpr ⟨⟨aimed, writer⟩, List.forall_mem_singleton.mpr ?_⟩
      cases target : e.target with
      | tracking =>
        have task := aimed.symm.trans target
        rw [a.battery.applyInput_eq (by rw [task]; nofun)] at applied
        have part := Except.ok.inj applied ▸ a.battery.applied_sublist _
        exact (CursorWrites.of_input (TaskState.inputWrites _ _ _) task writer).sublist part
      | monitoring | communications | resources | matching | scoreboard | instruction | genericScales | flag => trivial

theorem take (h : a.Steered p) {m : SyncMessage} (steers : m.Steers q) (n : Nat) :
    Steered p { a.take q m with taken := n } := by
  refine ⟨(a.reconciler.onward_onRemoteMessage a.battery q m).1.trans h.writer, ?_, h.sent⟩
  show ((a.reconciler.onRemoteMessage a.battery q m).2.1.store.read .tracking).NamesMover
  rcases a.reconciler.onRemoteMessage_cases a.battery q m with
    ⟨-, battery⟩ | ⟨e, stamp, rfl, -, battery⟩ | ⟨t, changes, rfl, -, battery⟩
  · rw [battery]
    exact h.mover
  · rw [battery]
    exact Battery.namesMover_applyInput h.mover steers.1 steers.2 rfl
  · rw [battery]
    show ((a.battery.store.apply ⟨t, .remoteDelta q, changes⟩).1.read .tracking).NamesMover
    rw [Store.read_apply]
    split
    · rename_i target
      subst target
      exact h.mover.apply steers rfl
    · exact h.mover

end Side.Steered

namespace Setting

variable {w : Setting} {moves : List SideMove}

/-- At any time the tracking task names on both sides whoever has written the cursor there. -/
theorem steered_after (spares : ∀ c ∈ w.script, c.SparesCursor)
    (room : ∀ k r, ((w.after (moves.take k)).get r).reconciler.clock.HasRoom) (k : Nat) (r : Role) :
    ((w.after (moves.take k)).get r).Steered (w.participants.get r) := by
  refine forall_side_after (P := fun r a => a.Steered (w.participants.get r)) (fun r => ?_)
    (fun _ _ h => h.playNext spares) (fun _ _ _ now _ h _ => h.input rfl rfl now)
    (fun _ _ _ _ n h other mem => h.take (other.sent _ mem) n) room k r
  have start : (TaskState.initial .tracking).NamesMover := by
    unfold TaskState.NamesMover
    decide +kernel
  have read : ((w.start.get r).battery.store.read .tracking) = TaskState.initial .tracking := by
    cases r <;> exact PerTask.get_ofFn ..
  refine ⟨?_, read ▸ start, ?_⟩
  · cases r <;> rfl
  · cases r <;> exact List.forall_mem_nil _

/-- **The tracking task names the same participant on both sides**, when both have played the script and have taken
every message, unless the script sets the cursor. -/
theorem tracking_named_alike (admits : w.Admits moves) (settled : w.IsSettled (w.after moves))
    (spares : ∀ c ∈ w.script, c.SparesCursor) :
    ((w.after moves).get .host).named .tracking = ((w.after moves).get .guest).named .tracking := by
  have names := fun r => (List.take_length (l := moves) ▸ steered_after spares admits.room moves.length r).mover
  obtain ⟨logs, h⟩ := coherent_after admits moves.length
  rw [List.take_length] at h
  have alike := h.alike admits.distinct settled .tracking "cursor"
  refine (names .host).trans (Eq.trans ?_ (names .guest).symm)
  show Option.bind ((w.after moves).host.battery.cell? .tracking "cursor") _ =
    Option.bind ((w.after moves).guest.battery.cell? .tracking "cursor") _
  generalize (w.after moves).host.battery.cell? .tracking "cursor" = here at alike ⊢
  generalize (w.after moves).guest.battery.cell? .tracking "cursor" = there at alike ⊢
  cases alike with
  | none => rfl
  | some alike => exact congrArg (·.writer.participant?) alike.1

end Setting

end Tandem
