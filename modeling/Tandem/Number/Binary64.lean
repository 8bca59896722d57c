/-!
# Binary floating-point numbers

Field values, joystick displacements and scores are 64-bit binary floating-point numbers.  They travel bit
for bit between the two participants, so the type holds the bit pattern: equality of the type is equality
of bits, which tells `-0` from `0` and one not-a-number from another.  The comparisons of arithmetic are
separate functions (`lt`, `le`, `same`): they read the pattern as a sign and a magnitude, call `-0` and `0`
the same, and answer no whenever an operand is not a number.
-/

namespace Tandem

/-- A floating-point number of 64 bits: sign, 11 bits of exponent, 52 bits of fraction. -/
structure Binary64 where
  bits : UInt64
deriving DecidableEq

namespace Binary64

/-- Positive zero. -/
def zero : Binary64 := ⟨0⟩

instance : Inhabited Binary64 := ⟨zero⟩

/-- The place of the sign in the bit pattern. -/
def signPlace : Nat := 0x8000000000000000

/-- The place of the lowest exponent bit in the bit pattern; the fraction is below it. -/
def exponentPlace : Nat := 0x10000000000000

/-- The magnitude of an infinity: all exponent bits set, no fraction. -/
def infinityMagnitude : Nat := 2047 * exponentPlace

/-- The quiet not-a-number with no further payload. -/
def notANumber : Binary64 := ⟨0x7ff8000000000000⟩

/-- The bit pattern without its sign. -/
def magnitude (x : Binary64) : Nat := x.bits.toNat % signPlace

/-- Whether the sign bit is set. -/
def isNegative (x : Binary64) : Bool := signPlace ≤ x.bits.toNat

/-- Whether the pattern stands for no number. -/
def isNaN (x : Binary64) : Bool := infinityMagnitude < x.magnitude

/-- Whether the pattern is one of the two infinities. -/
def isInfinite (x : Binary64) : Bool := x.magnitude = infinityMagnitude

/-- The pattern with the given sign and magnitude. -/
def ofMagnitude (negative : Bool) (magnitude : Nat) : Binary64 :=
  ⟨UInt64.ofNat (magnitude + if negative then signPlace else 0)⟩

/-- An infinity of the given sign. -/
def infinity (negative : Bool) : Binary64 := ofMagnitude negative infinityMagnitude

/-- The number as host floating point. -/
def toFloat (x : Binary64) : Float := Float.ofBits x.bits

/-- The bit pattern of a host floating-point number. -/
def ofFloat (x : Float) : Binary64 := ⟨x.toBits⟩

/-! ## Comparison by value -/

/-- The place of a number on the line: its magnitude, counted downwards when negative. -/
def rank (x : Binary64) : Int := if x.isNegative then -(x.magnitude : Int) else x.magnitude

/-- Strictly smaller by value. -/
def lt (x y : Binary64) : Bool := !x.isNaN && !y.isNaN && x.rank < y.rank

/-- Equal by value: `-0` is `0`, and what is not a number equals nothing. -/
def same (x y : Binary64) : Bool := !x.isNaN && !y.isNaN && x.rank = y.rank

/-- Moves a number into the interval between `low` and `high`; what is not a number stays as it is. -/
def clamp (x low high : Binary64) : Binary64 :=
  if x.lt low then low else if high.lt x then high else x

theorem same_self_iff (x : Binary64) : x.same x = true ↔ x.isNaN = false := by
  simp [same]

theorem same_comm (x y : Binary64) : x.same y = y.same x := by
  unfold same
  rw [Bool.and_comm (!x.isNaN), decide_eq_decide.mpr (eq_comm (a := x.rank))]

end Binary64

end Tandem
