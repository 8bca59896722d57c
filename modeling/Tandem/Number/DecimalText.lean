import Tandem.Number.Shortest
/-!
# Decimal text of floating-point numbers

Two written forms are in use.  The plain form, for displayed values, is always positional and leaves out
a fraction that is zero; of two equally near digit strings it takes the larger.  The record form, for
machine-read records, keeps `.0`, turns to an exponent from `10 ^ 16` upwards and below `10 ^ -5`, and
takes the even one of two equally near digit strings.
-/

namespace Tandem

namespace Decimal

/-- The digit characters, without leading zeros. -/
def digitChars (d : Decimal) : List Char := Nat.toDigits 10 d.digits

/-- How many digits stand before the decimal point; zero or less when the number is below one. -/
def pointPosition (d : Decimal) : Int := (d.digitChars.length : Int) + d.exponent

/-- A run of zeros. -/
def zeros (n : Int) : List Char := List.replicate n.toNat '0'

/-- Positional notation, `fraction` being what a whole number ends in. -/
def positional (d : Decimal) (fraction : List Char) : List Char :=
  let ds := d.digitChars
  let k := d.pointPosition
  if 0 ≤ d.exponent then ds ++ zeros d.exponent ++ fraction
  else if 0 < k then ds.take k.toNat ++ '.' :: ds.drop k.toNat
  else '0' :: '.' :: zeros (-k) ++ ds

/-- Notation with an exponent, which shows its sign either way. -/
def scientific (d : Decimal) : List Char :=
  let power := d.pointPosition - 1
  let mantissa := match d.digitChars with
    | [] => []
    | [c] => [c]
    | c :: rest => c :: '.' :: rest
  mantissa ++ 'e' :: (if power < 0 then '-' else '+') :: Nat.toDigits 10 power.natAbs

end Decimal

namespace Binary64

/-- The sign of a number in text. -/
def signChars (x : Binary64) : List Char := if x.isNegative then ['-'] else []

/-- The plain form: positional, shortest digits, no fraction when it is zero. -/
def toText (x : Binary64) : String :=
  if x.isNaN then "NaN"
  else if x.isInfinite then String.ofList (x.signChars ++ ['i', 'n', 'f'])
  else String.ofList (x.signChars ++ (x.shortest .away).positional [])

/-- Whether the record form writes a number positionally. -/
def isPositionalInRecord (d : Decimal) : Bool :=
  -5 < d.pointPosition ∧ d.pointPosition ≤ 16

/-- The record form; what is not a finite number is written as null. -/
def toRecordText (x : Binary64) : String :=
  if x.isNaN ∨ x.isInfinite then "null"
  else
    let d := x.shortest .toEven
    let body := if isPositionalInRecord d then d.positional ['.', '0'] else d.scientific
    String.ofList (x.signChars ++ body)

end Binary64

end Tandem
