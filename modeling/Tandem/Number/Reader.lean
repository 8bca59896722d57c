import Tandem.Number.Rounding
/-!
# Reading numbers

Raw scenario values are read as integers or floating-point numbers.  An integer is an optional sign and
ASCII digits and has to fit its width.  A floating-point number has digits before or after a point, an
optional exponent, or is one of the words `inf`, `infinity` and `nan` in any case; it is rounded to nearest.
An exponent of more than five digits counts only as far as `exponentBound` lets it.
-/

namespace Tandem.Number

/-- A number with one more decimal digit at its end. -/
def pushDigit (n : Nat) (c : Char) : Nat := n * 10 + (c.toNat - '0'.toNat)

/-- The value of a run of decimal digits. -/
def digitsValue (ds : List Char) : Nat := ds.foldl pushDigit 0

/-- The value of a run of decimal digits if it is below a bound.  Reading ends with the digit that reaches the
bound, however many there are after it. -/
def digitsBelow? (bound : Nat) (ds : List Char) : Option Nat :=
  ds.foldlM (fun n c => if pushDigit n c < bound then some (pushDigit n c) else none) 0

/-- A number sign is taken off the front; `true` stands for minus. -/
def takeSign : List Char → Bool × List Char
  | '-' :: rest => (true, rest)
  | '+' :: rest => (false, rest)
  | s => (false, s)

/-- Whether characters are a nonempty run of digits. -/
def isDigits (s : List Char) : Bool := s ≠ [] ∧ s.all Char.isDigit

/-- A signed integer of 64 bits. -/
def readInt64? (s : String) : Option Int64 := do
  let (negative, ds) := takeSign s.toList
  guard (isDigits ds)
  let n ← digitsBelow? UInt64.size ds
  let i : Int := if negative then -(n : Int) else n
  if Int64.minValue.toInt ≤ i ∧ i ≤ Int64.maxValue.toInt then some (Int64.ofInt i) else none

/-- An unsigned integer of 8 bits, which may have a plus sign. -/
def readUInt8? (s : String) : Option UInt8 := do
  let (negative, ds) := takeSign s.toList
  guard (!negative && isDigits ds)
  (digitsBelow? UInt8.size ds).map UInt8.ofNat

/-- The value from which on an exponent takes no further digits. -/
def exponentBound : Nat := 65536

/-- The value of the digits of an exponent.  Once it has reached the bound, the digits left are passed over. -/
def exponentValue (ds : List Char) : Nat :=
  ds.foldl (fun n c => if n < exponentBound then pushDigit n c else n) 0

/-- The exponent after the digits of a floating-point number: nothing, or a sign and digits after `e`. -/
def readExponent? : List Char → Option Int
  | [] => some 0
  | c :: rest => do
    guard (c = 'e' ∨ c = 'E')
    let (negative, ds) := takeSign rest
    guard (isDigits ds)
    let n := exponentValue ds
    pure (if negative then -(n : Int) else n)

/-- The fraction digits after the integer digits, and what follows them. -/
def takeFraction : List Char → List Char × List Char
  | '.' :: rest => (rest.takeWhile Char.isDigit, rest.dropWhile Char.isDigit)
  | s => ([], s)

/-- More significant digits than a number halfway between two floating-point numbers has. -/
def decidingDigits : Nat := 800

/-- The significant digits of a decimal as a number and the power of ten it is to be taken at.  All digits
after the deciding ones are replaced by a single one, which only tells whether they are all zero: no number
that rounding turns on lies between the two. -/
def significand (ds : List Char) : Nat × Nat :=
  let ds := ds.dropWhile (· = '0')
  match ds.drop decidingDigits with
  | [] => (digitsValue ds, 0)
  | _ :: rest =>
    let remainder := if (ds.drop decidingDigits).all (· = '0') then 0 else 1
    (digitsValue (ds.take decidingDigits) * 10 + remainder, rest.length)

/-- A floating-point number in digits. -/
def readDecimal? (negative : Bool) (s : List Char) : Option Binary64 := do
  let whole := s.takeWhile Char.isDigit
  let (fraction, rest) := takeFraction (s.dropWhile Char.isDigit)
  guard (whole ≠ [] ∨ fraction ≠ [])
  let exponent ← readExponent? rest
  let (digits, power) := significand (whole ++ fraction)
  pure (Binary64.ofDecimal negative digits (exponent - fraction.length + power))

/-- A floating-point number in words. -/
def readWord? (negative : Bool) (s : List Char) : Option Binary64 :=
  let word := String.ofList (s.map Char.toLower)
  if word = "inf" ∨ word = "infinity" then some (Binary64.infinity negative)
  else if word = "nan" then some (Binary64.ofMagnitude negative Binary64.notANumber.magnitude)
  else none

/-- A floating-point number. -/
def readBinary64? (s : String) : Option Binary64 :=
  let (negative, body) := takeSign s.toList
  (readDecimal? negative body).or (readWord? negative body)

/-! ## Reading below a bound -/

theorem le_foldl_pushDigit (n : Nat) (ds : List Char) : n ≤ ds.foldl pushDigit n := by
  induction ds generalizing n with
  | nil => exact Nat.le_refl n
  | cons c rest ih =>
    have step : n ≤ pushDigit n c := by
      unfold pushDigit
      omega
    exact Nat.le_trans step (ih (pushDigit n c))

private theorem foldlM_pushDigit (bound n : Nat) (ds : List Char) (h : n < bound) :
    ds.foldlM (fun n c => if pushDigit n c < bound then some (pushDigit n c) else none) n =
      if ds.foldl pushDigit n < bound then some (ds.foldl pushDigit n) else none := by
  induction ds generalizing n with
  | nil => simp [h]
  | cons c rest ih =>
    rw [List.foldlM_cons, List.foldl_cons]
    by_cases small : pushDigit n c < bound
    · rw [if_pos small]
      exact ih (pushDigit n c) small
    · have large : ¬ rest.foldl pushDigit (pushDigit n c) < bound := by
        have := le_foldl_pushDigit (pushDigit n c) rest
        omega
      rw [if_neg small, if_neg large]
      rfl

/-- Reading below a bound is reading and comparing. -/
theorem digitsBelow?_eq {bound : Nat} (h : 0 < bound) (ds : List Char) :
    digitsBelow? bound ds = if digitsValue ds < bound then some (digitsValue ds) else none :=
  foldlM_pushDigit bound 0 ds h

end Tandem.Number
