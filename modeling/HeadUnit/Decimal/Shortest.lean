import HeadUnit.Binary64

/-!
# Shortest decimal of a double

The decimal of a double has the fewest digits that still round to it, and among those it is the
nearest one. The search walks the grids `… 100, 10, 1, 0.1, …` downwards and stops at the first
grid that has a point in the interval of numbers that round to the double: if any point of a grid
is in that interval, one of the two grid points beside the double is.

## Main definitions

* `Decimal` — digits with the decimal exponent of the first one.
* `Binary64.shortest` — the shortest decimal of a magnitude.
* `Decimal.Layout`, `Decimal.render` — a decimal as text.
-/

namespace HeadUnit

/-- A decimal `d.ddd * 10 ^ exponent`, most significant digit first. -/
structure Decimal where
  digits : List Char
  exponent : Int
deriving DecidableEq, Repr

namespace Binary64

/-- The numbers that round to a double, in quarters of its last place scaled by a power of ten:
the double itself and the two ends. -/
structure Neighbourhood where
  value : Nat
  low : Nat
  high : Nat
  unit : Nat
  closed : Bool

/-- The interval of numbers that round to `x`, measured on the grid of step `10 ^ step`: a
quantity `n` of the result stands for `n / unit` grid steps. Below a power of two the neighbour
is only half as far. -/
def neighbourhood (x : Binary64) (step : Int) : Neighbourhood :=
  let m := x.significand
  let q := x.exponent - 2
  let belowPower := m == 0x10000000000000 && decide (-1074 < x.exponent)
  let up := Nat.pow 2 q.toNat * Nat.pow 10 (-step).toNat
  { value := 4 * m * up
    low := (4 * m - if belowPower then 1 else 2) * up
    high := (4 * m + 2) * up
    unit := Nat.pow 2 (-q).toNat * Nat.pow 10 step.toNat
    closed := m % 2 == 0 }

namespace Neighbourhood

/-- Whether grid point `point` rounds to the double. -/
def holds (b : Neighbourhood) (point : Nat) : Bool :=
  let n := point * b.unit
  if b.closed then decide (b.low ≤ n ∧ n ≤ b.high) else decide (b.low < n ∧ n < b.high)

/-- The grid point that rounds to the double and is nearest to it, a tie going to the even
point. -/
def nearest? (b : Neighbourhood) : Option Nat :=
  let below := b.value / b.unit
  let above := below + 1
  match b.holds below, b.holds above with
  | false, false => none
  | true, false => some below
  | false, true => some above
  | true, true =>
    let belowGap := b.value - below * b.unit
    let aboveGap := above * b.unit - b.value
    let isBelow := belowGap < aboveGap || (belowGap == aboveGap && below % 2 == 0)
    some (if isBelow then below else above)

end Neighbourhood

/-- A power of ten above every number that rounds to `x`. -/
def ceilingExponent (x : Binary64) : Int :=
  ((4 * x.significand + 2).log2 + 1 + (x.exponent - 2)) * 30103 / 100000 + 1

/-- The shortest decimal that rounds to the magnitude of a finite `x`. Seventeen digits always
suffice, so the grids below `ceilingExponent` reach it. -/
def shortest (x : Binary64) : Decimal :=
  let point? (i : Nat) : Option Decimal :=
    let step := x.ceilingExponent - i
    ((x.neighbourhood step).nearest?).map fun point =>
      let digits := Nat.toDigits 10 point
      ⟨digits, step + digits.length - 1⟩
  if x.significand = 0 then ⟨['0'], 0⟩
  else ((List.range 24).findSome? point?).getD ⟨['0'], 0⟩

end Binary64

namespace Decimal

/-- Which exponents are written without an exponent part. -/
structure Layout where
  least : Int
  greatest : Int

/-- `d.ddd`, or `d` alone. -/
def pointAfterFirst : List Char → List Char
  | d :: [] => [d]
  | d :: rest => d :: '.' :: rest
  | [] => []

/-- Positional form for the exponents of the layout, with at least one digit on either side of
the point; otherwise one digit before the point and a signed exponent. -/
def render (layout : Layout) (d : Decimal) : List Char :=
  if d.exponent < layout.least ∨ layout.greatest < d.exponent then
    pointAfterFirst d.digits ++ 'e' :: (if d.exponent < 0 then '-' else '+') ::
      Nat.toDigits 10 d.exponent.natAbs
  else if d.exponent < 0 then
    '0' :: '.' :: List.replicate (d.exponent.natAbs - 1) '0' ++ d.digits
  else
    let whole := d.exponent.toNat + 1
    let fraction := d.digits.drop whole
    d.digits.take whole ++ List.replicate (whole - d.digits.length) '0' ++ '.' ::
      (if fraction.isEmpty then ['0'] else fraction)

end Decimal

namespace Binary64

/-- The shortest decimal of a finite number with its sign. -/
def render (layout : Decimal.Layout) (x : Binary64) : List Char :=
  let magnitude := x.shortest.render layout
  if x.isNegative then '-' :: magnitude else magnitude

end Binary64

end HeadUnit
