/-!
# The tasks of the battery

Nine tasks share the screen of each participant.  Five take input; the others only show what the scenario
sets.  `PerTask` holds one value for each of them.
-/

namespace Tandem

/-- A task of the battery. -/
inductive TaskId where
  | monitoring
  | tracking
  | communications
  | resources
  | matching
  | scoreboard
  | instruction
  | genericScales
  /-- Markers that scenario generators leave in the log. -/
  | flag
deriving DecidableEq

namespace TaskId

/-- Every task, in the order in which tasks are listed. -/
def all : List TaskId :=
  [monitoring, tracking, communications, resources, matching, scoreboard, instruction, genericScales, flag]

/-- The name of a task in scenarios. -/
def name : TaskId → String
  | monitoring => "sysmon"
  | tracking => "track"
  | communications => "communications"
  | resources => "resman"
  | matching => "collaborativematching"
  | scoreboard => "scoreboard"
  | instruction => "instruction"
  | genericScales => "genericscales"
  | flag => "flag"

/-- The name of a task in snapshot records. -/
def recordName : TaskId → String
  | monitoring => "SystemMonitoring"
  | tracking => "Tracking"
  | communications => "Communications"
  | resources => "ResourceManagement"
  | matching => "CollaborativeMatching"
  | scoreboard => "Scoreboard"
  | instruction => "Instruction"
  | genericScales => "GenericScales"
  | flag => "Flag"

/-- The number of a task on the wire. -/
def toByte : TaskId → UInt8
  | monitoring => 1
  | tracking => 2
  | communications => 3
  | resources => 4
  | matching => 5
  | scoreboard => 6
  | instruction => 7
  | genericScales => 8
  | flag => 9

/-- Whether participants act on the task. -/
def takesInput : TaskId → Bool
  | monitoring | tracking | communications | resources | matching => true
  | _ => false

/-- The task with a scenario name. -/
def ofName? (s : String) : Option TaskId := all.find? (fun t => t.name = s)

/-- The task with a number on the wire. -/
def ofByte? (b : UInt8) : Option TaskId := all.find? (fun t => t.toByte = b)

theorem mem_all (t : TaskId) : t ∈ all := by cases t <;> decide

@[simp] theorem ofByte?_toByte (t : TaskId) : ofByte? t.toByte = some t := by cases t <;> decide

theorem toByte_of_ofByte? {b : UInt8} {t : TaskId} (h : ofByte? b = some t) : t.toByte = b := by
  simpa using List.find?_some h

end TaskId

/-- One value for every task. -/
structure PerTask (α : Type) where
  monitoring : α
  tracking : α
  communications : α
  resources : α
  matching : α
  scoreboard : α
  instruction : α
  genericScales : α
  flag : α

namespace PerTask

variable {α : Type}

/-- The values that a function gives the tasks. -/
def ofFn (f : TaskId → α) : PerTask α :=
  ⟨f .monitoring, f .tracking, f .communications, f .resources, f .matching, f .scoreboard, f .instruction,
    f .genericScales, f .flag⟩

/-- The value of a task. -/
def get (p : PerTask α) : TaskId → α
  | .monitoring => p.monitoring
  | .tracking => p.tracking
  | .communications => p.communications
  | .resources => p.resources
  | .matching => p.matching
  | .scoreboard => p.scoreboard
  | .instruction => p.instruction
  | .genericScales => p.genericScales
  | .flag => p.flag

/-- Replaces the value of one task. -/
def set (p : PerTask α) (t : TaskId) (a : α) : PerTask α :=
  match t with
  | .monitoring => { p with monitoring := a }
  | .tracking => { p with tracking := a }
  | .communications => { p with communications := a }
  | .resources => { p with resources := a }
  | .matching => { p with matching := a }
  | .scoreboard => { p with scoreboard := a }
  | .instruction => { p with instruction := a }
  | .genericScales => { p with genericScales := a }
  | .flag => { p with flag := a }

@[simp] theorem get_ofFn (f : TaskId → α) (t : TaskId) : (ofFn f).get t = f t := by cases t <;> rfl

theorem get_set (p : PerTask α) (t u : TaskId) (a : α) :
    (p.set t a).get u = if t = u then a else p.get u := by
  cases t <;> cases u <;> rfl

theorem ext_get {p q : PerTask α} (h : ∀ t, p.get t = q.get t) : p = q := by
  obtain ⟨⟩ := p
  obtain ⟨⟩ := q
  simp only [mk.injEq]
  exact ⟨h .monitoring, h .tracking, h .communications, h .resources, h .matching, h .scoreboard,
    h .instruction, h .genericScales, h .flag⟩

end PerTask

end Tandem
