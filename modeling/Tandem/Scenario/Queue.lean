import Tandem.Scenario.Command
/-!
# The queue of pending commands

The commands of a loaded scenario wait in dispatch order.  Advancing to a second hands out, in that order,
every command due by then; a command leaves the queue once.
-/

namespace Tandem

/-- Commands that have not been dispatched yet, in dispatch order. -/
structure CommandQueue where
  pending : List ScenarioCommand
  /-- How many commands have been handed out since loading. -/
  dispatched : Nat
  cancelled : Bool

namespace CommandQueue

/-- A queue without commands. -/
def empty : CommandQueue := ⟨[], 0, false⟩

/-- A queue of the commands of a scenario; equally placed commands keep their order. -/
def load (commands : List ScenarioCommand) : CommandQueue :=
  ⟨commands.mergeSort ScenarioCommand.precedes, 0, false⟩

/-- Commands in dispatch order are queued as they are. -/
theorem load_of_sorted {commands : List ScenarioCommand}
    (sorted : commands.Pairwise (fun a b => a.precedes b = true)) : load commands = ⟨commands, 0, false⟩ := by
  rw [load, List.mergeSort_of_pairwise sorted]

/-- Hands out the commands due at or before a second. -/
def advance (q : CommandQueue) (second : Nat) : List ScenarioCommand × CommandQueue :=
  let due := q.pending.takeWhile (fun c => c.dueSecond ≤ second)
  (due, { q with
    pending := q.pending.dropWhile (fun c => c.dueSecond ≤ second)
    dispatched := q.dispatched + due.length })

/-- Drops the pending commands when the session ends; tells how many there were. -/
def cancel (q : CommandQueue) : Nat × CommandQueue :=
  (q.pending.length, { q with pending := [], cancelled := true })

/-- The due second of the next command. -/
def nextDue? (q : CommandQueue) : Option Nat := q.pending.head?.map (·.dueSecond)

end CommandQueue

end Tandem
