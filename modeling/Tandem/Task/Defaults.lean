import Tandem.Task
import Tandem.Task.Value
/-!
# The fields a session starts with

Each task starts with a fixed list of fields.  The tables below are in the order in which the fields are
documented; the type of a default is the type the field keeps.
-/

namespace Tandem

/-- The network modes of a task: `no` keeps it local to each peer, the others share it. -/
def networkModes : List String := ["no", "client", "server", "as_host"]

/-- The network mode a task starts in. -/
def defaultNetworkMode : String := "as_host"

/-- The communication radios. -/
def radios : List String := ["nav1", "nav2", "com1", "com2"]

/-- The address of a radio's frequency. -/
def radioFrequencyKey (radio : String) : FieldKey := s!"radio-{radio}-frequency"

namespace TaskId

/-- A decimal default, `digits · 10 ^ exponent`. -/
private def decimal (digits : Int) (exponent : Int) : FieldValue :=
  .real (Binary64.ofDecimal (digits < 0) digits.natAbs exponent)

/-- An integer default. -/
private def whole (n : Int) : FieldValue := .int (Int64.ofInt n)

/-- The fields of every task. -/
private def displayFields (title placement : String) (updateMillis : Int) : List (FieldKey × FieldValue) :=
  [("running", .bool false), ("visible", .bool false), ("paused", .bool false), ("title", .text title),
    ("taskplacement", .text placement), ("taskupdatetime", whole updateMillis)]

/-- The fields of every task that takes input. -/
private def inputFields (title placement : String) (updateMillis : Int) : List (FieldKey × FieldValue) :=
  displayFields title placement updateMillis
    ++ [("score", whole 0), ("network", .text defaultNetworkMode), ("resetperformance", .text "")]

/-- The feedback fields of one kind of acknowledgement. -/
private def feedbackFields (kind color : String) : List (FieldKey × FieldValue) :=
  [(s!"feedbacks-{kind}-active", .bool true), (s!"feedbacks-{kind}-color", .text color),
    (s!"feedbacks-{kind}-duration", whole 1500), (s!"feedbacks-{kind}-trigger", whole 0)]

/-- The fields of a light. -/
private def lightFields (n : Nat) (name : String) (on : Bool) (color : String) :
    List (FieldKey × FieldValue) :=
  [(s!"lights-{n}-name", .text name), (s!"lights-{n}-failure", .bool false), (s!"lights-{n}-on", .bool on),
    (s!"lights-{n}-default", .text (if on then "on" else "off")), (s!"lights-{n}-oncolor", .text color),
    (s!"lights-{n}-keys", .text name)]

/-- The fields of a scale. -/
private def scaleFields (n : Nat) : List (FieldKey × FieldValue) :=
  [(s!"scales-{n}-name", .text s!"F{n}"), (s!"scales-{n}-failure", .text "no"),
    (s!"scales-{n}-keys", .text s!"F{n}")]

/-- The fields of a radio. -/
private def radioFields (radio : String) (frequency : FieldValue) : List (FieldKey × FieldValue) :=
  [(radioFrequencyKey radio, frequency), (s!"radio-{radio}-target", frequency)]

/-- The fields of a pump. -/
private def pumpFields (n : Nat) (flow : Int) : List (FieldKey × FieldValue) :=
  [(s!"pump-{n}-state", whole 0), (s!"pump-{n}-flow", whole flow), (s!"pump-{n}-keys", .text s!"{n}"),
    (s!"pump-{n}-hide", whole 0)]

/-- The fields of a tank. -/
private def tankFields (tank : String) (level max target depletable loss : Int) :
    List (FieldKey × FieldValue) :=
  [(s!"tank-{tank}-level", whole level), (s!"tank-{tank}-max", whole max),
    (s!"tank-{tank}-target", whole target), (s!"tank-{tank}-depletable", whole depletable),
    (s!"tank-{tank}-lossperminute", whole loss), (s!"tank-{tank}-hide", whole 0)]

/-- The fields of a participant's window onto the scene. -/
private def windowFields (n : Nat) : List (FieldKey × FieldValue) :=
  [(s!"window-{n}-minx", whole (-2000)), (s!"window-{n}-maxx", whole 2000),
    (s!"window-{n}-miny", whole (-2000)), (s!"window-{n}-maxy", whole 2000)]

/-- The fields a task starts a session with. -/
def defaults : TaskId → List (FieldKey × FieldValue)
  | monitoring =>
    inputFields "System monitoring" "topleft" 200
      ++ [("alerttimeout", whole 10000), ("automaticsolver", .bool false),
        ("automaticsolverdelay", whole 1000), ("displayautomationstate", .bool false),
        ("allowanykey", .bool false), ("scalesnumofboxes", whole 11), ("safezonelength", whole 3),
        ("scalestyle", whole 1)]
      ++ feedbackFields "positive" "#ffff00" ++ feedbackFields "negative" "#ff0000"
      ++ lightFields 1 "F5" true "#009900" ++ lightFields 2 "F6" false "#FF0000"
      ++ scaleFields 1 ++ scaleFields 2 ++ scaleFields 3 ++ scaleFields 4
  | tracking =>
    inputFields "Tracking" "topmid" 20
      ++ [("cursor", .point .zero .zero), ("cursorcolor", .text "#0000FF"),
        ("cursorcoloroutside", .text "#0000FF"), ("automaticsolver", .bool false),
        ("displayautomationstate", .bool false), ("assistedsolver", .bool false),
        ("targetradius", decimal 1 (-1)), ("joystickforce", decimal 1 0), ("cutofffrequency", decimal 6 (-2)),
        ("equalproportions", .bool true), ("multiplier", decimal 1 0), ("setcursorx", decimal (-2) 0),
        ("setcursory", decimal (-2) 0), ("settime", decimal (-1) 0)]
  | communications =>
    inputFields "Communications" "bottomleft" 50
      ++ radioFields "nav1" (decimal 1125 (-1)) ++ radioFields "nav2" (decimal 1125 (-1))
      ++ radioFields "com1" (decimal 1265 (-1)) ++ radioFields "com2" (decimal 1265 (-1))
      ++ [("owncallsign", .text ""), ("othercallsignnumber", whole 5), ("voicegender", .text "male"),
        ("voiceidiom", .text "english"), ("radioprompt", .text ""), ("nextradiooverride", .text ""),
        ("nextfrequencyoverride", .text ""), ("nextcallsignoverride", .text "")]
  | resources =>
    inputFields "Resources management" "bottommid" 2000
      ++ [("heuristicsolver", .bool false), ("assistedsolver", .bool false),
        ("displayautomationstate", .bool false), ("pumpcoloroff", .text "#AAAAAA"),
        ("pumpcoloron", .text "#00FF00"), ("pumpcolorfailure", .text "#FF0000"),
        ("tolerancelevel", whole 500), ("displaytolerance", .bool true), ("progresstimertime", whole 0),
        ("progresstimer-started", whole 0)]
      ++ pumpFields 1 800 ++ pumpFields 2 600 ++ pumpFields 3 800 ++ pumpFields 4 600
      ++ pumpFields 5 600 ++ pumpFields 6 600 ++ pumpFields 7 400 ++ pumpFields 8 400
      ++ tankFields "a" 2500 4000 2500 1 800 ++ tankFields "b" 2500 4000 2500 1 800
      ++ tankFields "c" 1000 2000 (-1) 1 0 ++ tankFields "d" 1000 2000 (-1) 1 0
      ++ tankFields "e" 3000 4000 (-1) 0 0 ++ tankFields "f" 3000 4000 (-1) 0 0
  | matching =>
    inputFields "Collaborative Matching" "topmid" 20
      ++ [("joystickmovementmult", decimal 500 0), ("joystickaccelmult", decimal 5 (-1)),
        ("joystickdeadzone", decimal 5 (-2)), ("driftmultiplier", decimal 1 0),
        ("sceneminx", whole (-2000)), ("scenemaxx", whole 2000), ("sceneminy", whole (-2000)),
        ("scenemaxy", whole 2000), ("viewposx", decimal 0 0), ("viewposy", decimal 0 0),
        ("viewvelx", decimal 0 0), ("viewvely", decimal 0 0), ("nextobjectimage", .text ""),
        ("nextobjectposx", decimal 0 0), ("nextobjectposy", decimal 0 0), ("nextobjecttypeid", whole 0),
        ("nextobjectsizex", whole 100), ("nextobjectsizey", whole 100), ("selectedobjectid", whole (-1)),
        ("targetobjectid", whole (-1)), ("timelimit", whole 10000), ("currenttime", whole 0),
        ("objectcount", whole 0), ("round-number", whole 0), ("round-status", .text "none"),
        ("round-deadline", whole 0)]
      ++ windowFields 1 ++ windowFields 2
  | scoreboard => displayFields "Scoreboard" "topright" 1000
  | instruction =>
    displayFields "Instruction" "fullscreen" 0
      ++ [("filename", .text ""), ("pointsize", whole 0), ("durationsec", whole 0),
        ("mindurationsec", whole 0), ("image", .text ""), ("network", .text defaultNetworkMode)]
  | genericScales =>
    displayFields "Generic scales" "fullscreen" 0
      ++ [("filename", .text ""), ("network", .text defaultNetworkMode)]
  | flag => displayFields "Flag" "none" 0 ++ [("flag", .text "")]

/-- The radio frequency that `updatefrequency-COM_1` and its like stand for. -/
def radioAlias? (t : TaskId) (key : FieldKey) : Option FieldKey := do
  guard (t = communications)
  let name ← Text.afterLeading? "updatefrequency-" key
  let radio := String.ofList ((name.toList.filter (· ≠ '_')).map Char.toLower)
  if radios.contains radio then some (radioFrequencyKey radio) else none

/-- Whether a scenario may set a field of the task. -/
def isKnownParameter (t : TaskId) (key : FieldKey) : Bool :=
  (t.radioAlias? key).isSome || t.defaults.any (fun field => field.1 = key)

end TaskId

end Tandem
