import Tandem.Duration
import Tandem.Text.Blank
/-!
# Durations in text

A duration is written as spans, each a number and a unit: `1m 30s`, `2days 3h`.  A number may have a
fraction, spans may touch, and a unit may repeat, in which case the spans add up.  A lone `0` needs no
unit.  Numbers and sums are limited to 64 bits.  A fraction has to come out even: up to the minute as a whole
number of nanoseconds, from the hour on as a whole number of seconds.

Reading walks the characters once with the `Reading` of the current span; writing takes the duration apart
by the calendar units, the month being 30.44 days and the year 365.25.
-/

namespace Tandem.Duration

/-- A unit of a span. -/
inductive SpanUnit where
  | nanosecond | microsecond | millisecond | second | minute | hour | day | week | month | year
deriving DecidableEq

namespace SpanUnit

/-- The names of a unit. -/
def names : SpanUnit → List String
  | nanosecond => ["nanos", "nsec", "ns"]
  | microsecond => ["usec", "us", "µs"]
  | millisecond => ["millis", "msec", "ms"]
  | second => ["seconds", "second", "secs", "sec", "s"]
  | minute => ["minutes", "minute", "min", "mins", "m"]
  | hour => ["hours", "hour", "hrs", "hr", "h"]
  | day => ["days", "day", "d"]
  | week => ["weeks", "week", "wks", "wk", "w"]
  | month => ["months", "month", "M"]
  | year => ["years", "year", "yrs", "yr", "y"]

/-- Every unit. -/
def all : List SpanUnit :=
  [nanosecond, microsecond, millisecond, second, minute, hour, day, week, month, year]

/-- The unit of a name. -/
def ofName? (name : String) : Option SpanUnit := all.find? (fun u => u.names.contains name)

/-- The nanoseconds of a unit shorter than a second. -/
def nanosBelowSecond : SpanUnit → Option Nat
  | nanosecond => some 1
  | microsecond => some 1000
  | millisecond => some Duration.millisecond
  | _ => none

/-- The seconds of a unit, none for those shorter than a second. -/
def seconds : SpanUnit → Nat
  | nanosecond | microsecond | millisecond => 0
  | second => 1
  | minute => 60
  | hour => 3600
  | day => 86400
  | week => 604800
  | month => 2630016
  | year => 31557600

/-- The nanoseconds of a unit. -/
def nanos (u : SpanUnit) : Nat := u.nanosBelowSecond.getD (u.seconds * Duration.second)

/-- What a fraction of a unit has to be a whole number of. -/
inductive Grain where
  | nanosecond | second
deriving DecidableEq

/-- The grain of the fractions of a unit; a nanosecond has no fractions. -/
def grain? : SpanUnit → Option Grain
  | nanosecond => none
  | microsecond | millisecond | second | minute => some .nanosecond
  | hour | day | week | month | year => some .second

end SpanUnit

/-- A number that has to stay within 64 bits. -/
def fits? (n : Nat) : Option Nat := if n < UInt64.size then some n else none

/-- Adds seconds and nanoseconds to a duration, each kept within 64 bits. -/
def extend? (d : Duration) (seconds nanos : Nat) : Option Duration := do
  let nanos ← fits? (d.subsecondNanos + nanos)
  let total : Duration := ⟨(d.wholeSeconds + seconds) * second + nanos⟩
  let _ ← fits? total.wholeSeconds
  pure total

/-- Digits after a decimal point, as a fraction. -/
structure Fraction where
  num : Nat
  den : Nat

/-- The fraction of a number, none unless that is a whole number. -/
def Fraction.of? (f : Fraction) (n : Nat) : Option Nat := do
  let product ← fits? (f.num * n)
  if product % f.den = 0 then some (product / f.den) else none

/-- Adds `whole` units. -/
def addWhole? (d : Duration) (whole : Nat) (u : SpanUnit) : Option Duration := do
  match u.nanosBelowSecond with
  | some n => d.extend? 0 (← fits? (whole * n))
  | none => d.extend? (← fits? (whole * u.seconds)) 0

/-- Adds a fraction of a unit, which has to be a whole number of its grain. -/
def addFraction? (d : Duration) (f : Fraction) (u : SpanUnit) : Option Duration := do
  match ← u.grain? with
  | .nanosecond => d.extend? 0 (← f.of? u.nanos)
  | .second => d.extend? (← f.of? u.seconds) 0

/-- Adds a span of `whole` units and a fraction of one. -/
def addSpan? (d : Duration) (whole : Nat) (fraction : Option Fraction) (u : SpanUnit) : Option Duration := do
  let d ← d.addWhole? whole u
  match fraction with
  | none => pure d
  | some f => d.addFraction? f u

/-- How far the current span has been read. -/
inductive Reading where
  /-- Between spans: a number is next. -/
  | outside
  /-- In the digits before the point. -/
  | whole (n : Nat)
  /-- In the digits after the point. -/
  | fraction (n : Nat) (f : Fraction)
  /-- In the name of the unit, read backwards. -/
  | unit (n : Nat) (f : Option Fraction) (name : List Char)

/-- The value of a digit character. -/
def digitOf (c : Char) : Nat := c.toNat - '0'.toNat

/-- Whether a character can stand in the name of a unit. -/
def isUnitChar (c : Char) : Bool := c.isAlpha || c = 'µ'

/-- Ends a span with the name read so far. -/
def closeSpan? (total : Duration) (n : Nat) (f : Option Fraction) (name : List Char) : Option Duration := do
  total.addSpan? n f (← SpanUnit.ofName? (String.ofList name.reverse))

/-- Reads one character. -/
def readChar? (total : Duration) : Reading → Char → Option (Duration × Reading)
  | .outside, c =>
    if c.isDigit then some (total, .whole (digitOf c))
    else if Text.isBlank c then some (total, .outside)
    else none
  | .whole n, c =>
    if c.isDigit then (fits? (n * 10 + digitOf c)).map (fun m => (total, .whole m))
    else if Text.isBlank c then some (total, .whole n)
    else if isUnitChar c then some (total, .unit n none [c])
    else if c = '.' then some (total, .fraction n ⟨0, 1⟩)
    else none
  | .fraction n f, c =>
    if c.isDigit then do
      let den ← fits? (f.den * 10)
      let num ← fits? (f.num * 10 + digitOf c)
      pure (total, .fraction n ⟨num, den⟩)
    else if Text.isBlank c then some (total, .fraction n f)
    else if isUnitChar c ∧ f.den ≠ 1 then some (total, .unit n (some f) [c])
    else none
  | .unit n f name, c =>
    if c.isDigit then (closeSpan? total n f name).map (·, .whole (digitOf c))
    else if Text.isBlank c then (closeSpan? total n f name).map (·, .outside)
    else if isUnitChar c then some (total, .unit n f (c :: name))
    else none

/-- Reads a text of spans. -/
def ofText? (s : String) : Option Duration :=
  if s = "0" then some zero
  else if s.toList.all Text.isBlank then none
  else do
    match ← s.toList.foldlM (fun st c => readChar? st.1 st.2 c) (zero, Reading.outside) with
    | (total, .outside) => some total
    | (total, .unit n f name) => closeSpan? total n f name
    | _ => none

/-- A span in text, nothing for a count of zero. -/
def spanText (count : Nat) (unit : String) : List String := if count = 0 then [] else [s!"{count}{unit}"]

/-- A span of a unit that is written out, in the singular or the plural. -/
def longSpanText (count : Nat) (unit : String) : List String :=
  spanText count (if count = 1 then unit else unit ++ "s")

/-- The spans of a duration, from years to nanoseconds. -/
def toText (d : Duration) : String :=
  let s := d.wholeSeconds
  let withinYear := s % SpanUnit.year.seconds
  let withinMonth := withinYear % SpanUnit.month.seconds
  let withinDay := withinMonth % SpanUnit.day.seconds
  let n := d.subsecondNanos
  let spans :=
    longSpanText (s / SpanUnit.year.seconds) "year"
      ++ longSpanText (withinYear / SpanUnit.month.seconds) "month"
      ++ longSpanText (withinMonth / SpanUnit.day.seconds) "day"
      ++ spanText (withinDay / 3600) "h"
      ++ spanText (withinDay % 3600 / 60) "m"
      ++ spanText (withinDay % 60) "s"
      ++ spanText (n / 1000000) "ms"
      ++ spanText (n / 1000 % 1000) "us"
      ++ spanText (n % 1000) "ns"
  if d.nanos = 0 then "0s" else " ".intercalate spans

end Tandem.Duration
