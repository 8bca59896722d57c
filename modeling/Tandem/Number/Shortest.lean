import Tandem.Number.Binary64
/-!
# Shortest decimals

A floating-point number is written with the fewest decimal digits that read back as the same number, and
of those digit strings with the one nearest to the exact value; a `Tie` settles which of two equally near ones.

A decimal `d · 10 ^ p` reads back when it lies in the interval of reals that round to the number; the ends
belong to the interval exactly when the significand is even.  The fewest digits are on the coarsest grid
`10 ^ p` that has a point in the interval, and if a grid has one, then one of the two neighbours of the
exact value is one.  All comparisons are made on naturals over a common denominator.
-/

namespace Tandem

/-- Which of two equally near neighbours is taken. -/
inductive Tie where
  /-- The one with an even last digit. -/
  | toEven
  /-- The one farther from zero. -/
  | away
deriving DecidableEq

/-- The decimal number `digits · 10 ^ exponent`. -/
structure Decimal where
  digits : Nat
  exponent : Int
deriving DecidableEq

/-- The reals that round to one floating-point number: everything from `low` to `high`, over `den`. -/
structure RoundingInterval where
  low : Nat
  mid : Nat
  high : Nat
  den : Nat
  /-- Whether `low` and `high` themselves round to the number. -/
  closed : Bool

namespace RoundingInterval

/-- Whether `num / scale` times the denominator lies in the interval. -/
def holds (i : RoundingInterval) (num scale : Nat) : Bool :=
  if i.closed then i.low * scale ≤ num ∧ num ≤ i.high * scale
  else i.low * scale < num ∧ num < i.high * scale

/-- The points of the grid `10 ^ p` next to the exact value, the preferred one first: the nearer one, and
of two equally near ones that which the tie rule takes. -/
def neighbours (i : RoundingInterval) (tie : Tie) (p : Int) : List Nat :=
  let num := i.mid * Nat.pow 10 (-p).toNat
  let den := i.den * Nat.pow 10 p.toNat
  let below := num / den
  let excess := 2 * (num % den)
  if excess < den ∨ (excess = den ∧ tie = .toEven ∧ below % 2 = 0) then [below, below + 1]
  else [below + 1, below]

/-- The best point of the grid `10 ^ p` in the interval. -/
def onGrid? (i : RoundingInterval) (tie : Tie) (p : Int) : Option Nat :=
  (i.neighbours tie p).find? (fun d => i.holds (d * i.den * Nat.pow 10 p.toNat) (Nat.pow 10 (-p).toNat))

/-- The coarsest grid from `10 ^ p` downwards with a point in the interval. -/
def coarsest (i : RoundingInterval) (tie : Tie) : Nat → Int → Option Decimal
  | 0, _ => none
  | steps + 1, p =>
    match i.onGrid? tie p with
    | some d => some ⟨d, p⟩
    | none => i.coarsest tie steps (p - 1)

end RoundingInterval

namespace Binary64

/-- The significand and the weight exponent of the last place of a finite number. -/
def parts (x : Binary64) : Nat × Int :=
  let biased : Nat := x.magnitude / exponentPlace
  let fraction : Nat := x.magnitude % exponentPlace
  if biased = 0 then (fraction, -1074) else (fraction + exponentPlace, (biased : Int) - 1075)

/-- The interval of reals that round to a positive finite number.  Below a power of two the gap to the
smaller neighbour is half the gap to the larger one, except among the subnormal numbers. -/
def roundingInterval (x : Binary64) : RoundingInterval :=
  let m := x.parts.1
  let q := x.parts.2 - 2
  let unit := 1 <<< q.toNat
  let lowGap := if m = exponentPlace ∧ -1076 < q then 1 else 2
  { low := (4 * m - lowGap) * unit
    mid := 4 * m * unit
    high := (4 * m + 2) * unit
    den := 1 <<< (-q).toNat
    closed := m % 2 = 0 }

/-- The shortest decimal that reads back as the magnitude of a finite number.  The search starts at a
power of ten above the number and needs at most 20 grids from there. -/
def shortest (tie : Tie) (x : Binary64) : Decimal :=
  let m := x.parts.1
  if m = 0 then ⟨0, 0⟩ else
  let start := ((m.log2 : Int) + x.parts.2 + 1) * 30103 / 100000 + 1
  (x.roundingInterval.coarsest tie 25 start).getD ⟨m, 0⟩

end Binary64

end Tandem
