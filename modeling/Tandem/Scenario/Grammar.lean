import Tandem.Scenario.Command
import Tandem.Fault
import Tandem.Number.Reader
/-!
# The grammar of scenario lines

```
line     := time [ "-" priority ] ";" body
time     := H ":" MM ":" SS
priority := digit+
body     := action
          | main-parameter ";" value
          | task ";" action
          | task ";" parameter ";" value
```

Blanks around a line and around each of its fields do not count.  The priority is part of the grammar, so a
malformed one is an error of its line rather than a command that runs at the wrong moment.

`parseLine` reads a line and `ScenarioCommand.canonical` writes one.
-/

namespace Tandem

/-- Why a scenario line cannot be run. -/
inductive LineFault where
  | fieldCount (n : Nat)
  | priorityNotDigits (text : String)
  | priorityTooLarge (text : String)
  | timeShape (text : String)
  | timeRange (text : String)
  | emptyField
  | notSessionAction (word : String)
  | notTaskAction (word task : String)
  | unknownTask (name : String)
  | malformedAddress (text : String)
  | unknownParameter (parameter task : String)
deriving DecidableEq

namespace LineFault

/-- The wording for people. -/
def message : LineFault → String
  | fieldCount n => s!"expected 2 to 4 ';'-separated fields, got {n}"
  | priorityNotDigits text => s!"priority '{text}' is not a non-negative integer"
  | priorityTooLarge text => s!"priority '{text}' out of range"
  | timeShape text => s!"wrong time format '{text}', expected h:mm:ss"
  | timeRange text => s!"minutes and seconds must be below 60 in '{text}'"
  | emptyField => "empty field"
  | notSessionAction word => s!"'{word}' is not a main action"
  | notTaskAction word task => s!"'{word}' is not an action of '{task}'"
  | unknownTask name => s!"unknown task '{name}'"
  | malformedAddress text => s!"malformed parameter address '{text}'"
  | unknownParameter parameter task => s!"'{parameter}' is not a parameter of '{task}'"

/-- The fault of a line of the scenario. -/
def inLine (f : LineFault) (line : Nat) : Fault := .malformedCommand line f.message

end LineFault

namespace Scenario

/-- The parameters of the session as a whole. -/
def sessionParameters : List String := ["showlabels", "allowescape", "messagetolog", "allowaltf4"]

/-- Whether a line carries no command: it is blank or a comment. -/
def isIgnorable (line : String) : Bool :=
  match Text.trimChars line.toList with
  | [] => true
  | c :: _ => c = '#'

/-- Reads a priority. -/
def parsePriority (text : String) : Except LineFault Nat :=
  if Number.isDigits text.toList then
    match Number.digitsBelow? UInt32.size text.toList with
    | some n => .ok n
    | none => .error (.priorityTooLarge text)
  else .error (.priorityNotDigits text)

/-- Whether a text is a number of exactly `width` digits. -/
def isDigitField (width : Nat) (s : String) : Bool :=
  s.toList.length = width && s.toList.all Char.isDigit

/-- Reads a time as whole seconds. -/
def parseTime (text : String) : Except LineFault Nat :=
  match Text.pieces ':' text with
  | [h, m, s] =>
    if isDigitField 1 h && isDigitField 2 m && isDigitField 2 s then
      let minutes := Number.digitsValue m.toList
      let seconds := Number.digitsValue s.toList
      if 59 < minutes ∨ 59 < seconds then .error (.timeRange text)
      else .ok (Number.digitsValue h.toList * 3600 + minutes * 60 + seconds)
    else .error (.timeShape text)
  | _ => .error (.timeShape text)

/-- Reads a time and the priority after its dash, which is read first; without one the priority is zero. -/
def parseTimePriority (token : String) : Except LineFault (Nat × Nat) :=
  match Text.cut? '-' token with
  | none => do pure (← parseTime token, 0)
  | some (time, priority) => do
    let p ← parsePriority priority
    pure (← parseTime time, p)

/-- Reads the name of a task. -/
def parseTask (name : String) : Except LineFault TaskId :=
  match TaskId.ofName? name with
  | some t => .ok t
  | none => .error (.unknownTask name)

/-- Whether a character can stand in a segment of a parameter address. -/
def isAddressChar (c : Char) : Bool := c.isAlphanum || c = '_'

/-- Whether a text is made of nonempty segments joined by dashes. -/
def isAddress (s : String) : Bool :=
  (FieldKey.segments s).all (fun segment => !segment.isEmpty && segment.toList.all isAddressChar)

/-- Reads a parameter address.  The feedback duration of the monitoring task has an older name. -/
def parseAddress (t : TaskId) (text : String) : Except LineFault FieldKey :=
  if t = .monitoring ∧ text = "feedbackduration" then .ok "feedbacks-positive-duration"
  else if isAddress text then .ok text
  else .error (.malformedAddress text)

/-- Reads the action of a target. -/
def parseAction (target : Target) (word : String) (fault : LineFault) : Except LineFault CommandPayload :=
  match Action.ofWord? word with
  | some a => if a.allowedFor target then .ok (.act target a) else .error fault
  | none => .error fault

/-- Reads the fields after the time. -/
def parseBody (fields : List String) : Except LineFault CommandPayload :=
  if fields.any String.isEmpty then .error .emptyField else
  match fields with
  | [word] => parseAction .session word (.notSessionAction word)
  | [name, second] =>
    if sessionParameters.contains name then .ok (.set .session name second)
    else do
      let t ← parseTask name
      parseAction (.task t) second (.notTaskAction second name)
  | [name, parameter, value] => do
    let t ← parseTask name
    let key ← parseAddress t parameter
    pure (.set (.task t) key value)
  | _ => .error (.fieldCount (fields.length + 1))

/-- Reads the fields of a line. -/
def parseFields (line index : Nat) (fields : List String) : Except LineFault ScenarioCommand :=
  match fields with
  | [] => .error (.fieldCount 0)
  | time :: body =>
    if body.length < 1 ∨ 3 < body.length then .error (.fieldCount (body.length + 1))
    else do
      let (dueSecond, priority) ← parseTimePriority time
      let payload ← parseBody body
      pure ⟨dueSecond, priority, payload, line, index⟩

/-- Reads a line.  The command is placed at `line` for reports and at `index` in file order. -/
def parseLine (line index : Nat) (text : String) : Except Fault ScenarioCommand :=
  (parseFields line index ((Text.pieces ';' (Text.trim text)).map Text.trim)).mapError (·.inLine line)

end Scenario

namespace CommandPayload

/-- The fields of a line for a payload; the session is not named. -/
def fields : CommandPayload → List String
  | act .session a => [a.name]
  | act (.task t) a => [t.name, a.name]
  | set .session parameter value => [parameter, value]
  | set (.task t) parameter value => [t.name, parameter, value]

end CommandPayload

namespace ScenarioCommand

/-- The time of a command as a line shows it. -/
def timeText (c : ScenarioCommand) : String :=
  let padded := SessionTime.padded 2
  s!"{c.dueSecond / 3600}:{padded (c.dueSecond / 60 % 60)}:{padded (c.dueSecond % 60)}"

/-- The line of a command, with its priority written out. -/
def canonical (c : ScenarioCommand) : String :=
  ";".intercalate (s!"{c.timeText}-{c.priority}" :: c.payload.fields)

end ScenarioCommand

end Tandem
