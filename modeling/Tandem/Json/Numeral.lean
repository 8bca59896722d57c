import Tandem.Number.Reader
/-!
# Numerals of JSON text

A numeral keeps its digits until it is known what it is read as.  As an integer it may have neither fraction
nor exponent.  As a floating-point number it is evaluated in two rounded steps: the leading digits that fit 64 bits
as an integer, then a power of ten.
-/

namespace Tandem

namespace Binary64

/-- The product, rounded to nearest. -/
def mul (x y : Binary64) : Binary64 := ofFloat (x.toFloat * y.toFloat)

/-- The quotient, rounded to nearest. -/
def div (x y : Binary64) : Binary64 := ofFloat (x.toFloat / y.toFloat)

/-- The number with its sign turned, if asked for. -/
def withSign (negative : Bool) (x : Binary64) : Binary64 := ofMagnitude negative x.magnitude

end Binary64

/-- A number as it is written in JSON text. -/
structure Numeral where
  negative : Bool
  /-- The digits before the point. -/
  whole : List Char
  /-- The digits after the point. -/
  fraction : List Char
  /-- Whether the exponent is negative, and its digits. -/
  exponent : Option (Bool × List Char)

namespace Numeral

/-- The numeral read as a natural number of 64 bits.  Minus zero is not one. -/
def toNat? (n : Numeral) : Option Nat :=
  if n.negative ∨ n.fraction ≠ [] ∨ n.exponent.isSome then none
  else Number.digitsBelow? UInt64.size n.whole

/-- The numeral read as an integer of any size. -/
def toInt? (n : Numeral) : Option Int :=
  if n.fraction ≠ [] ∨ n.exponent.isSome then none
  else
    let v : Int := Number.digitsValue n.whole
    some (if n.negative then -v else v)

/-- The leading digits of a numeral as an integer of 64 bits, and the power of ten they are short of. -/
structure Scaled where
  significand : Nat
  power : Int
  /-- Whether a digit has not fitted. -/
  full : Bool

namespace Scaled

/-- Takes a digit before the point.  From the first digit that does not fit, digits only count. -/
def pushWhole (s : Scaled) (c : Char) : Scaled :=
  let next := Number.pushDigit s.significand c
  if s.full ∨ UInt64.size ≤ next then { s with power := s.power + 1, full := true }
  else { s with significand := next }

/-- Takes a digit after the point.  From the first digit that does not fit, digits are dropped. -/
def pushFraction (s : Scaled) (c : Char) : Scaled :=
  let next := Number.pushDigit s.significand c
  if s.full ∨ UInt64.size ≤ next then { s with full := true }
  else { s with significand := next, power := s.power - 1 }

end Scaled

/-- The leading digits of a numeral, its exponent left aside. -/
def scaled (n : Numeral) : Scaled :=
  let whole := n.whole.foldl Scaled.pushWhole ⟨0, 0, false⟩
  n.fraction.foldl Scaled.pushFraction { whole with full := false }

/-- A number times a power of ten, none if it is infinite.  A power that has no floating-point number is
reached by dividing step by step; three steps take every number to zero. -/
def timesPower : (steps : Nat) → Binary64 → Int → Option Binary64
  | 0, x, _ => some x
  | steps + 1, x, power =>
    if power.natAbs ≤ 308 then
      let factor := Binary64.ofDecimal false 1 power.natAbs
      if 0 ≤ power then
        let y := x.mul factor
        if y.isInfinite then none else some y
      else some (x.div factor)
    else if x.magnitude = 0 then some x
    else if 0 ≤ power then none
    else timesPower steps (x.div (Binary64.ofDecimal false 1 308)) (power + 308)

/-- The exponents below this are taken at face value. -/
def exponentLimit : Nat := 0x80000000

/-- The numeral read as a floating-point number, none if it is beyond the largest one. -/
def toBinary64? (n : Numeral) : Option Binary64 :=
  let s := n.scaled
  let evaluate (power : Int) :=
    (timesPower 8 (Binary64.ofInt s.significand) power).map (Binary64.withSign n.negative)
  match n.exponent with
  | none => evaluate s.power
  | some (down, digits) =>
    match Number.digitsBelow? exponentLimit digits with
    | none => if s.significand ≠ 0 ∧ !down then none else some (Binary64.ofMagnitude n.negative 0)
    | some e => evaluate (if down then s.power - e else s.power + e)

end Numeral

end Tandem
