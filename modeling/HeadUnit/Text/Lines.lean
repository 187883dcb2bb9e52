/-!
# Lines of a stream

A line ends with `\n` or with `\r\n`; the last line of a stream need not end. A line is blank if
it holds nothing but whitespace, that is characters of Unicode's property `White_Space`.

## Main definitions

* `Text.lines` — the lines of a stream without their ends.
* `Text.notText` — what is said of bytes that are no text.
* `Text.isBlankLine` — whether a line is blank.
-/

namespace HeadUnit.Text

/-- A line whose bytes before `\n` are given last first. -/
def endedLine : List UInt8 → List UInt8
  | 13 :: line => line.reverse
  | line => line.reverse

/-- The lines of a stream whose first line begins with `begun`, last byte first. -/
def linesFrom (begun : List UInt8) : List UInt8 → List (List UInt8)
  | [] => if begun.isEmpty then [] else [begun.reverse]
  | 10 :: rest => endedLine begun :: linesFrom [] rest
  | b :: rest => linesFrom (b :: begun) rest

/-- The lines of a stream without their ends. -/
def lines (stream : List UInt8) : List (List UInt8) :=
  linesFrom [] stream

theorem linesFrom_append (begun s t : List UInt8) :
    linesFrom begun (s ++ 10 :: t) = linesFrom begun (s ++ [10]) ++ lines t := by
  induction s generalizing begun with
  | nil => simp [linesFrom, lines]
  | cons b s ih => by_cases h : b = 10 <;> simp [linesFrom, h, ih]

/-- An ended stream and what comes after it have their lines apart. -/
theorem lines_append (s t : List UInt8) :
    lines (s ++ 10 :: t) = lines (s ++ [10]) ++ lines t :=
  linesFrom_append [] s t

/-- What is said of bytes that are no text. -/
def notText : String := "stream did not contain valid UTF-8"

/-! ## Blank lines -/

/-- The first and the last code point of every run of whitespace. -/
def whitespaceRuns : List (Nat × Nat) := [
  (0x09, 0x0d), (0x20, 0x20), (0x85, 0x85), (0xa0, 0xa0), (0x1680, 0x1680), (0x2000, 0x200a),
  (0x2028, 0x2029), (0x202f, 0x202f), (0x205f, 0x205f), (0x3000, 0x3000)]

def isWhitespace (c : Char) : Bool :=
  whitespaceRuns.any fun (first, last) => decide (first ≤ c.toNat ∧ c.toNat ≤ last)

theorem isWhitespace_of_isWhitespace {c : Char} (h : c.isWhitespace = true) :
    isWhitespace c = true := by
  simp only [Char.isWhitespace, Bool.or_eq_true, decide_eq_true_eq] at h
  rcases h with ((rfl | rfl) | rfl) | rfl <;> decide

/-- Whether a text shows nothing. -/
def isBlankLine (s : String) : Bool :=
  s.toList.all isWhitespace

end HeadUnit.Text
