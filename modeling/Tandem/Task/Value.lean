import Tandem.Number.Reader
import Tandem.Number.DecimalText
import Tandem.Text.Blank
import Tandem.Text.Pieces
/-!
# Field addresses and typed values

What a task shows is a map from field addresses to typed values.  An address is made of segments joined by
dashes, as in `scales-1-failure`.  A raw scenario value is read in the type of the field it is written to
(`FieldValue.coerce?`); for a field that does not exist yet the type is guessed (`FieldValue.infer`).
-/

namespace Tandem

/-- The address of a field within its task. -/
abbrev FieldKey := String

/-- The segments of an address. -/
def FieldKey.segments (k : FieldKey) : List String := Text.pieces '-' k

/-- The form of an address for diagnostics. -/
def FieldKey.describe (k : FieldKey) : String := s!"Field({k})"

/-- A typed field value.  Equality of the type is exact, bit for bit; `FieldValue.same` is equality by
value. -/
inductive FieldValue where
  | bool (b : Bool)
  | int (i : Int64)
  | real (x : Binary64)
  | text (s : String)
  | point (x y : Binary64)
deriving DecidableEq

namespace FieldValue

/-- The boolean of a boolean value. -/
def asBool? : FieldValue → Option Bool
  | bool b => some b
  | _ => none

/-- The integer of an integer value. -/
def asInt? : FieldValue → Option Int64
  | int i => some i
  | _ => none

/-- The number of a numeric value; an integer is rounded to the nearest one. -/
def asReal? : FieldValue → Option Binary64
  | real x => some x
  | int i => some (Binary64.ofInt i.toInt)
  | _ => none

/-- The text of a text value. -/
def asText? : FieldValue → Option String
  | text s => some s
  | _ => none

/-- The coordinates of a point. -/
def asPoint? : FieldValue → Option (Binary64 × Binary64)
  | point x y => some (x, y)
  | _ => none

/-- Equality by value: two values of one type that are equal, where floating-point numbers compare by
number, so that nothing equals what is not a number. -/
def same : FieldValue → FieldValue → Bool
  | bool a, bool b => a = b
  | int a, int b => a = b
  | real a, real b => a.same b
  | text a, text b => a = b
  | point a b, point c d => a.same c && b.same d
  | _, _ => false

/-- The words for truth values, in any case. -/
def readBool? (s : String) : Option Bool :=
  let word := Text.lowercase s
  if word = "true" then some true else if word = "false" then some false else none

/-- Reads a raw value in the type of an existing one.  A point is two numbers with a comma between. -/
def coerce? (v : FieldValue) (raw : String) : Option FieldValue :=
  let raw := Text.trim raw
  match v with
  | bool _ => (readBool? raw).map bool
  | int _ => (Number.readInt64? raw).map int
  | real _ => (Number.readBinary64? raw).map real
  | text _ => some (text raw)
  | point _ _ => do
    let (x, y) ← Text.cut? ',' raw
    pure (point (← Number.readBinary64? (Text.trim x)) (← Number.readBinary64? (Text.trim y)))

/-- Reads a raw value in the first type that fits: boolean, integer, number, text. -/
def infer (raw : String) : FieldValue :=
  let raw := Text.trim raw
  (((readBool? raw).map bool).or ((Number.readInt64? raw).map int)).or ((Number.readBinary64? raw).map real)
    |>.getD (text raw)

/-- The displayed form. -/
def toText : FieldValue → String
  | bool b => if b then "true" else "false"
  | int i => toString i.toInt
  | real x => x.toText
  | text s => s
  | point x y => s!"{x.toText},{y.toText}"

/-- Whether two values are of one type. -/
def sameType : FieldValue → FieldValue → Bool
  | bool _, bool _ | int _, int _ | real _, real _ | text _, text _ | point .., point .. => true
  | _, _ => false

/-- A coerced value is of the type it was coerced to. -/
theorem sameType_of_coerce? {v w : FieldValue} {raw : String} (h : v.coerce? raw = some w) :
    v.sameType w = true := by
  cases v <;> simp only [coerce?, Option.map_eq_some_iff, Option.some.injEq] at h
  case bool => obtain ⟨_, _, rfl⟩ := h; rfl
  case int => obtain ⟨_, _, rfl⟩ := h; rfl
  case real => obtain ⟨_, _, rfl⟩ := h; rfl
  case text => subst h; rfl
  case point =>
    simp only [Option.bind_eq_bind, Option.bind_eq_some_iff, Option.pure_def, Option.some.injEq] at h
    obtain ⟨_, _, _, _, _, _, rfl⟩ := h
    rfl

end FieldValue

end Tandem
