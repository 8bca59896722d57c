import Tandem.Fifo
import Tandem.Store.TaskState
/-!
# The task store

The store holds the state of every task and is the one place where mutations are applied.  Each mutation
that changes something is noted twice: in the journal, which loses nothing and feeds the mutation log, and
in a bounded queue of notifications for a renderer, which drops its oldest entry when it is full.  A
snapshot of the task is published at the same moment.
-/

namespace Tandem

/-- The note of a mutation that changed a task. -/
structure Notification where
  task : TaskId
  origin : Origin
  /-- The version of the task after the mutation. -/
  version : Nat
  /-- The changes that took effect. -/
  changes : List FieldChange
deriving DecidableEq

/-- The state of all tasks, with what is waiting to be told about it. -/
structure Store where
  tasks : PerTask TaskState
  /-- The mutations since the journal was last drained. -/
  journal : Fifo Notification
  /-- The mutations a renderer has not fetched yet, oldest first. -/
  notifications : Fifo Notification
  /-- How many notifications are kept; none are if it is zero. -/
  capacity : Nat
  /-- How many notifications were dropped for want of room. -/
  dropped : Nat
  /-- What readers outside the session see. -/
  published : PerTask TaskSnapshot

namespace Store

/-- The capacity of a store for which none is chosen. -/
def standardCapacity : Nat := 1024

/-- The tasks at the start of a session. -/
def initialTasks : PerTask TaskState := .ofFn TaskState.initial

/-- A store at the start of a session. -/
def new (capacity : Nat) : Store :=
  ⟨initialTasks, .empty, .empty, capacity, 0, .ofFn (fun t => (TaskState.initial t).snapshot)⟩

/-- The state of a task. -/
def read (s : Store) (t : TaskId) : TaskState := s.tasks.get t

/-- Puts every task back to the start of a session; what was waiting to be told is forgotten. -/
def reset (s : Store) : Store := { new s.capacity with dropped := s.dropped }

/-- Queues a notification, dropping the oldest one if there is no room. -/
def push (s : Store) (n : Notification) : Store :=
  if s.capacity = 0 then s
  else if s.notifications.size = s.capacity then
    { s with notifications := s.notifications.dropOldest.push n, dropped := s.dropped + 1 }
  else { s with notifications := s.notifications.push n }

/-- Applies a mutation. -/
def apply (s : Store) (m : Mutation) : Store × Outcome :=
  let (state, outcome) := (s.read m.task).apply m.origin m.changes
  if outcome.isNoop then (s, outcome)
  else
    let n : Notification := ⟨m.task, m.origin, state.version, outcome.applied⟩
    let s := s.push n
    ({ s with
        tasks := s.tasks.set m.task state
        published := s.published.set m.task state.snapshot
        journal := s.journal.push n },
      outcome)

/-- The tasks that have been changed or differ from the start of a session. -/
def touchedTasks (s : Store) : List TaskState :=
  (TaskId.all.map s.read).filter (fun t => t.version ≠ 0 || !t.touched.isEmpty)

/-- Takes the journal. -/
def drainJournal (s : Store) : List Notification × Store := (s.journal.toList, { s with journal := .empty })

/-- Takes the notifications. -/
def drainNotifications (s : Store) : List Notification × Store :=
  (s.notifications.toList, { s with notifications := .empty })

/-- The values of a task's fields. -/
def values (s : Store) (t : TaskId) : OrderedMap FieldKey FieldValue := (s.read t).snapshot.fields

/-- Whether two stores hold the same fields with the same values, by value. -/
def agrees (a b : Store) : Bool := TaskId.all.all (fun t => sameValues (a.values t) (b.values t))

/-- The fields of `a` that `b` lacks or holds with another value. -/
def differences (a b : Store) : List (TaskId × FieldKey) :=
  TaskId.all.flatMap (fun t =>
    (a.values t).entries.filterMap (fun e =>
      match (b.values t).get? e.1 with
      | some other => if other.same e.2 then none else some (t, e.1)
      | none => some (t, e.1)))

end Store

end Tandem
