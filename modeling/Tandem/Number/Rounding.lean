import Tandem.Number.Binary64
/-!
# Rounding a ratio to floating point

`Binary64.ofRatio` is the nearest floating-point number to a ratio of naturals, a tie going to the even
significand.  Reading a decimal (`Binary64.ofDecimal`) and converting an integer (`Binary64.ofInt`) are
this one function at a power of ten and at one.  So is adding (`Binary64.add`): finite numbers are whole multiples
of the smallest positive one, and their sum as such is rounded.
-/

namespace Tandem

/-- The quotient rounded to the nearest natural, a half going to the even neighbour. -/
def roundHalfEven (num den : Nat) : Nat :=
  let floor := num / den
  let excess := 2 * (num % den)
  if den < excess ∨ (excess = den ∧ floor % 2 = 1) then floor + 1 else floor

namespace Binary64

/-- The exponent `e` with `2 ^ e ≤ num / den < 2 ^ (e + 1)`, for positive arguments. -/
def floorLog2 (num den : Nat) : Int :=
  let guess : Int := (num.log2 : Int) - den.log2
  if den <<< guess.toNat ≤ num <<< (-guess).toNat then guess else guess - 1

/-- The magnitude of the floating-point number nearest to `num / den`.

The last place of the result weighs `2 ^ q`, where `q` keeps 53 significant bits but is never below the
last place of the subnormal numbers.  Counting magnitudes in that place makes the carry into the next
exponent come out by itself. -/
def magnitudeOfRatio (num den : Nat) : Nat :=
  if num = 0 then 0 else
  let q : Int := max (floorLog2 num den - 52) (-1074)
  let significand := roundHalfEven (num <<< (-q).toNat) (den <<< q.toNat)
  min ((q + 1074).toNat * exponentPlace + significand) infinityMagnitude

/-- The floating-point number nearest to a ratio, infinite beyond the largest finite one. -/
def ofRatio (negative : Bool) (num den : Nat) : Binary64 :=
  ofMagnitude negative (magnitudeOfRatio num den)

/-- The floating-point number nearest to an integer. -/
def ofInt (i : Int) : Binary64 := ofRatio (i < 0) i.natAbs 1

/-- The floating-point number nearest to `digits · 10 ^ exponent`.

Exponents that push every number of this many digits over the largest finite number, or under half of the
smallest positive one, are settled without forming the power. -/
def ofDecimal (negative : Bool) (digits : Nat) (exponent : Int) : Binary64 :=
  let lengthBound : Int := digits.log2 / 3 + 1
  if digits = 0 ∨ exponent + lengthBound < -330 then ofMagnitude negative 0
  else if 400 < exponent then infinity negative
  else ofRatio negative (digits * Nat.pow 10 exponent.toNat) (Nat.pow 10 (-exponent).toNat)

/-! ## Sums -/

/-- A finite number as a multiple of the smallest positive one, which is `2 ^ -1074`. -/
def multiple (x : Binary64) : Int :=
  let exponent := x.magnitude / exponentPlace
  let fraction := x.magnitude % exponentPlace
  let size := if exponent = 0 then fraction else (exponentPlace + fraction) <<< (exponent - 1)
  if x.isNegative then -(size : Int) else size

/-- The sum, rounded to nearest.  A sum of zero is negative only if both summands are. -/
def add (x y : Binary64) : Binary64 :=
  if x.isNaN || y.isNaN then notANumber
  else if x.isInfinite then
    if y.isInfinite && x.isNegative != y.isNegative then notANumber else x
  else if y.isInfinite then y
  else
    let sum := x.multiple + y.multiple
    if sum = 0 then ofMagnitude (x.isNegative && y.isNegative) 0
    else ofRatio (sum < 0) sum.natAbs (1 <<< 1074)

instance : Add Binary64 := ⟨add⟩

end Binary64

end Tandem
