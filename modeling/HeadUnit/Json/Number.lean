import HeadUnit.Json

/-!
# Reading JSON numbers

The digits of a number are gathered into a sixty-four bit significand for as long as they fit;
what does not fit only moves the exponent. A number without fraction and exponent that fits a
signed or an unsigned word is an integer, any other is a double: the significand rounded, then
multiplied or divided by a power of ten, which rounds a second time. The negative zero is a
double.

## Main definitions

* `Json.Numeral` — a number as written.
* `Json.Numeral.ofChars?` — the longest numeral at the front of a text.
* `Json.Numeral.toJson?` — its value, if it is not too large.
-/

namespace HeadUnit.Json

/-- A number as written: sign, whole part, fraction and exponent. -/
structure Numeral where
  negative : Bool
  whole : List Char
  fraction : Option (List Char)
  exponent : Option Int
deriving Repr

/-- A character of the decimal digits. -/
def digitValue (c : Char) : Nat :=
  c.toNat - '0'.toNat

def natOfDigits (ds : List Char) : Nat :=
  ds.foldl (fun n c => n * 10 + digitValue c) 0

/-- The digits at the front, at least one, and what follows them. -/
def digits? (s : List Char) : Option (List Char × List Char) :=
  let ds := s.takeWhile Char.isDigit
  if ds.isEmpty then none else some (ds, s.dropWhile Char.isDigit)

/-- The whole part: a zero alone, or digits that start with another one. -/
def whole? : List Char → Option (List Char × List Char)
  | '0' :: rest => some (['0'], rest)
  | s => digits? s

/-- A point with digits after it, or nothing. -/
def fraction? : List Char → Option (Option (List Char) × List Char)
  | '.' :: rest => (digits? rest).map fun (ds, rest) => (some ds, rest)
  | s => some (none, s)

/-- The sign of an exponent and its digits. -/
def signedDigits? : List Char → Option (Int × List Char)
  | '-' :: rest => (digits? rest).map fun (ds, rest) => (-(natOfDigits ds : Int), rest)
  | '+' :: rest => (digits? rest).map fun (ds, rest) => ((natOfDigits ds : Int), rest)
  | s => (digits? s).map fun (ds, rest) => ((natOfDigits ds : Int), rest)

/-- An exponent mark with a number after it, or nothing. -/
def exponent? : List Char → Option (Option Int × List Char)
  | 'e' :: rest | 'E' :: rest => (signedDigits? rest).map fun (n, rest) => (some n, rest)
  | s => some (none, s)

def sign : List Char → Bool × List Char
  | '-' :: rest => (true, rest)
  | s => (false, s)

namespace Numeral

/-- The longest numeral at the front of a text, and what follows it. -/
def ofChars? (s : List Char) : Option (Numeral × List Char) := do
  let (negative, s) := sign s
  let (whole, s) ← whole? s
  let (fraction, s) ← fraction? s
  let (exponent, s) ← exponent? s
  some (⟨negative, whole, fraction, exponent⟩, s)

/-! ## The significand -/

/-- A significand with the digits of the whole part that it has no room for. -/
structure Whole where
  significand : Nat
  dropped : Nat

def fits (significand digit : Nat) : Bool :=
  decide (significand * 10 + digit < UInt64.size)

/-- Once a digit has been dropped, all further digits of the whole part are. -/
def pushWhole (w : Whole) (c : Char) : Whole :=
  if w.dropped = 0 && fits w.significand (digitValue c) then
    { w with significand := w.significand * 10 + digitValue c }
  else { w with dropped := w.dropped + 1 }

def gatherWhole (ds : List Char) : Whole :=
  ds.foldl pushWhole ⟨0, 0⟩

/-- The digits of a fraction that still fit, up to the first that does not: the significand and
how many were taken. -/
def gatherFraction (significand : Nat) : List Char → Nat × Nat
  | [] => (significand, 0)
  | c :: rest =>
    if fits significand (digitValue c) then
      let (total, taken) := gatherFraction (significand * 10 + digitValue c) rest
      (total, taken + 1)
    else (significand, 0)

/-! ## The value -/

/-- `x * 10 ^ exponent`, by one product, or by quotients in steps of `10 ^ 308`. There is no
result above the greatest double. -/
def scale (x : Binary64) (exponent : Int) : Option Binary64 :=
  if 0 ≤ exponent then
    if exponent ≤ 308 then
      let y := x.product (.powerOfTen exponent.toNat)
      if y.isFinite then some y else none
    else if x.isZero then some x else none
  else if -308 ≤ exponent then some (x.quotient (.powerOfTen (-exponent).toNat))
  else if x.isZero then some x
  else scale (x.quotient (.powerOfTen 308)) (exponent + 308)
termination_by (-exponent).toNat

/-- The double of a numeral. -/
def toFloat? (n : Numeral) : Option Binary64 :=
  let whole := gatherWhole n.whole
  let (significand, taken) := gatherFraction whole.significand (n.fraction.getD [])
  let exponent := (whole.dropped : Int) - taken + n.exponent.getD 0
  (scale (.ofNat significand) exponent).map fun x => if n.negative then x.negate else x

/-- The integer of a numeral without fraction and exponent, if it fits a word. -/
def toInt? (n : Numeral) : Option Int :=
  let whole := gatherWhole n.whole
  if n.fraction.isSome || n.exponent.isSome || whole.dropped != 0 then none
  else if n.negative then
    if whole.significand = 0 ∨ 0x8000000000000000 < whole.significand then none
    else some (-(whole.significand : Int))
  else some whole.significand

def toJson? (n : Numeral) : Option Json :=
  match n.toInt? with
  | some i => some (ofInt i)
  | none => n.toFloat?.map ofFloat

end Numeral

end HeadUnit.Json
