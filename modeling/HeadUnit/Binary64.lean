/-!
# Double precision numbers

A double is kept as its bit pattern, so two doubles are equal exactly when they have the same
sixty-four bits: a zero differs from the negative zero, and a NaN equals itself. All arithmetic
is exact on naturals and rounds once, to nearest with ties to even.

## Main definitions

* `Binary64.significand`, `Binary64.exponent` — the magnitude of a finite double is
  `significand * 2 ^ exponent`, where a normal significand has fifty-three bits.
* `Binary64.ofRatio` — the double nearest to a ratio of naturals.
* `Binary64.ofInt` — the double nearest to an integer.
-/

namespace HeadUnit

/-- A double precision number by its bit pattern. -/
structure Binary64 where
  bits : UInt64
deriving DecidableEq, Repr

namespace Binary64

/-! ## Fields of the bit pattern -/

/-- Bit 63. -/
def isNegative (x : Binary64) : Bool :=
  decide (0x8000000000000000 ≤ x.bits.toNat)

/-- Bits 52 to 62. -/
def exponentField (x : Binary64) : Nat :=
  x.bits.toNat / 0x10000000000000 % 0x800

/-- Bits 0 to 51. -/
def fractionField (x : Binary64) : Nat :=
  x.bits.toNat % 0x10000000000000

/-- Neither an infinity nor a NaN. -/
def isFinite (x : Binary64) : Bool :=
  x.exponentField != 2047

def isNaN (x : Binary64) : Bool :=
  x.exponentField == 2047 && x.fractionField != 0

def isZero (x : Binary64) : Bool :=
  x.exponentField == 0 && x.fractionField == 0

/-- The integer factor of the magnitude; a subnormal has no hidden bit. -/
def significand (x : Binary64) : Nat :=
  if x.exponentField = 0 then x.fractionField else 0x10000000000000 + x.fractionField

/-- The power of two in the magnitude; subnormals share the least one. -/
def exponent (x : Binary64) : Int :=
  if x.exponentField = 0 then -1074 else (x.exponentField : Int) - 1075

def zero : Binary64 := ⟨0⟩

/-- The same magnitude with the other sign. -/
def negate (x : Binary64) : Binary64 :=
  ⟨x.bits ^^^ 0x8000000000000000⟩

/-! ## Rounding -/

/-- `num / den` rounded to the nearest integer, a half going to the even neighbour. -/
def roundHalfEven (num den : Nat) : Nat :=
  let quotient := num / den
  let rest := num % den
  if den < 2 * rest || (2 * rest == den && quotient % 2 == 1) then quotient + 1 else quotient

/-- `num / den / 2 ^ shift` as a numerator and a denominator. -/
def scaleDown (num den : Nat) (shift : Int) : Nat × Nat :=
  if 0 ≤ shift then (num, den * Nat.pow 2 shift.toNat) else (num * Nat.pow 2 (-shift).toNat, den)

/-- The power of two that leaves a quotient of `num / den` with fifty-three bits, or with fewer
if that power would be below the least one. -/
def unitExponent (num den : Nat) : Int :=
  let guess := max ((num.log2 : Int) - den.log2 - 53) (-1074)
  let scaled := scaleDown num den guess
  if scaled.1 / scaled.2 < 0x20000000000000 then guess else guess + 1

/-- The bit pattern of `significand * 2 ^ exponent` without a sign. A significand of `2 ^ 53`
carries into the exponent, and what exceeds the greatest double is infinity. -/
def pack (significand : Nat) (exponent : Int) : Nat :=
  if significand < 0x10000000000000 then significand
  else min ((exponent + 1074).toNat * 0x10000000000000 + significand) (2047 * 0x10000000000000)

/-- The double nearest to `num / den`, ties to even. -/
def ofRatio (num den : Nat) : Binary64 :=
  let unit := unitExponent num den
  let scaled := scaleDown num den unit
  ⟨(pack (roundHalfEven scaled.1 scaled.2) unit).toUInt64⟩

def ofNat (n : Nat) : Binary64 :=
  ofRatio n 1

/-- The double nearest to `n`, ties to even. -/
def ofInt (n : Int) : Binary64 :=
  if n < 0 then (ofNat n.natAbs).negate else ofNat n.natAbs

/-! ## Products and quotients of magnitudes -/

/-- The double nearest to `significand * 2 ^ exponent / den`. -/
def ofScaled (significand : Nat) (exponent : Int) (den : Nat) : Binary64 :=
  if 0 ≤ exponent then ofRatio (significand * Nat.pow 2 exponent.toNat) den
  else ofRatio significand (den * Nat.pow 2 (-exponent).toNat)

/-- The rounded product of two finite magnitudes. -/
def product (x y : Binary64) : Binary64 :=
  ofScaled (x.significand * y.significand) (x.exponent + y.exponent) 1

/-- The rounded quotient of two finite magnitudes, the second not zero. -/
def quotient (x y : Binary64) : Binary64 :=
  ofScaled x.significand (x.exponent - y.exponent) y.significand

/-- The double nearest to a power of ten. -/
def powerOfTen (n : Nat) : Binary64 :=
  ofNat (Nat.pow 10 n)

end Binary64

end HeadUnit
