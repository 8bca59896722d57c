import Tandem.OrderedMap
import Tandem.Session.Mutation
import Tandem.Task.Defaults
/-!
# The state of one task

A task's fields are cells: a value and the stamp of the write that put it there.  A write takes effect only
if its stamp is not below that of the cell, so the order in which writes arrive does not matter beyond
that.  A write with the stamp and the value of the cell changes nothing and does not count.
-/

namespace Tandem

/-- A field value and the stamp of its write. -/
structure Cell where
  value : FieldValue
  stamp : Stamp
deriving DecidableEq

/-- The fields of a task, and who last changed them. -/
structure TaskState where
  task : TaskId
  fields : OrderedMap FieldKey Cell
  /-- The participant whose mutation last changed the task. -/
  lastParticipant : Option ParticipantId
  /-- The number of mutations that changed the task. -/
  version : Nat

/-- The outcome of a batch of changes: those that took effect, in order, and how many did not. -/
structure Outcome where
  applied : List FieldChange
  superseded : Nat
deriving DecidableEq

namespace Outcome

/-- Nothing attempted. -/
def nothing : Outcome := ⟨[], 0⟩

/-- Whether nothing took effect. -/
def isNoop (o : Outcome) : Bool := o.applied.isEmpty

end Outcome

namespace TaskState

/-- A task at the start of a session. -/
def initial (t : TaskId) : TaskState :=
  ⟨t, .ofList (t.defaults.map (fun field => (field.1, ⟨field.2, .genesis⟩))), none, 0⟩

/-- The cell of a field. -/
def cell? (s : TaskState) (key : FieldKey) : Option Cell := s.fields.get? key

/-- The value of a field. -/
def get? (s : TaskState) (key : FieldKey) : Option FieldValue := (s.cell? key).map (·.value)

/-- Whether the task has a field. -/
def contains (s : TaskState) (key : FieldKey) : Bool := s.fields.contains key

/-- The truth value of a field, false if it has none. -/
def bool (s : TaskState) (key : FieldKey) : Bool := ((s.get? key).bind (·.asBool?)).getD false

/-- The integer of a field, zero if it has none. -/
def int (s : TaskState) (key : FieldKey) : Int64 := ((s.get? key).bind (·.asInt?)).getD 0

/-- The number of a field, zero if it has none. -/
def real (s : TaskState) (key : FieldKey) : Binary64 := ((s.get? key).bind (·.asReal?)).getD .zero

/-- The text of a field, empty if it has none. -/
def text (s : TaskState) (key : FieldKey) : String := ((s.get? key).bind (·.asText?)).getD ""

/-- Whether the task takes input at the moment: it runs and is not paused. -/
def acceptsInput (s : TaskState) : Bool := s.bool "running" && !s.bool "paused"

/-- Whether the participants share the task: it takes input and is not in the local network mode. -/
def isShared (s : TaskState) : Bool := s.task.takesInput && s.text "network" ≠ "no"

/-! ## Writes -/

/-- Whether a cell, or its absence, gives way to a change. -/
def admits (cell : Option Cell) (c : FieldChange) : Bool :=
  match cell with
  | none => true
  | some held => held.stamp ≤ c.stamp && !(c.stamp = held.stamp && c.value.same held.value)

/-- The fields after a change, if it takes effect. -/
def write? (fields : OrderedMap FieldKey Cell) (c : FieldChange) : Option (OrderedMap FieldKey Cell) :=
  if admits (fields.get? c.key) c then some (fields.insert c.key ⟨c.value, c.stamp⟩) else none

/-- One change of a batch: the fields and the outcome so far, with the applied changes last first. -/
def absorb (acc : OrderedMap FieldKey Cell × Outcome) (c : FieldChange) :
    OrderedMap FieldKey Cell × Outcome :=
  match write? acc.1 c with
  | some fields => (fields, { acc.2 with applied := c :: acc.2.applied })
  | none => (acc.1, { acc.2 with superseded := acc.2.superseded + 1 })

/-- The fields after a batch of changes, in order, and its outcome. -/
def writeAll (fields : OrderedMap FieldKey Cell) (changes : List FieldChange) :
    OrderedMap FieldKey Cell × Outcome :=
  let (fields, outcome) := changes.foldl absorb (fields, .nothing)
  (fields, { outcome with applied := outcome.applied.reverse })

/-- The state after a batch of changes from an origin.  A batch without effect leaves no trace. -/
def apply (s : TaskState) (origin : Origin) (changes : List FieldChange) : TaskState × Outcome :=
  let (fields, outcome) := writeAll s.fields changes
  if outcome.isNoop then (s, outcome)
  else
    ({ s with
        fields := fields
        lastParticipant := origin.participant?.or s.lastParticipant
        version := s.version + 1 },
      outcome)

/-- Whether a field has a cell with the value and the stamp of a given one. -/
def holds (s : TaskState) (key : FieldKey) (cell : Cell) : Bool :=
  match s.cell? key with
  | some held => cell.value.same held.value && cell.stamp = held.stamp
  | none => false

/-- The fields that differ from the start of a session, each as the change that would make it so. -/
def touched (s : TaskState) : List FieldChange :=
  let first := initial s.task
  (s.fields.entries.filter (fun e => !first.holds e.1 e.2)).map (fun e => ⟨e.1, e.2.value, e.2.stamp⟩)

end TaskState

/-- A read-only copy of a task's values, for a renderer. -/
structure TaskSnapshot where
  task : TaskId
  version : Nat
  lastParticipant : Option ParticipantId
  fields : OrderedMap FieldKey FieldValue

/-- Equality by value of two maps of field values: the same keys, each with the same value. -/
def sameValues (a b : OrderedMap FieldKey FieldValue) : Bool :=
  a.size = b.size && (a.entries.zip b.entries).all (fun e => e.1.1 = e.2.1 && e.1.2.same e.2.2)

namespace TaskSnapshot

/-- Equality by value. -/
def same (a b : TaskSnapshot) : Bool :=
  a.task = b.task && a.version = b.version && a.lastParticipant = b.lastParticipant
    && sameValues a.fields b.fields

end TaskSnapshot

/-- A copy of a task's values. -/
def TaskState.snapshot (s : TaskState) : TaskSnapshot :=
  ⟨s.task, s.version, s.lastParticipant, s.fields.map (·.value)⟩

end Tandem
