import HeadUnit.Json.Reader
import HeadUnit.Text.Lines
import Mathlib.Data.List.TakeWhile

/-!
# Lines and blank texts

A stream is cut into lines at its line ends. The lines in front of the first one that is no text
are those of an ended stream and then those of what follows it. A text that shows nothing is no
JSON value, although more characters show nothing than JSON allows between its tokens.

## Main definitions

* `Text.isText` — whether the bytes of a line are a text.

## Main statements

* `Text.lines_line` — a stream begins with the line in front of its first line end.
* `Text.takeWhile_isText_lines_append` — the lines of one stream behind another.
* `Text.parse?_of_isBlankLine` — blank texts are no JSON values.
-/

namespace HeadUnit.Text

/-! ## Lines -/

/-- Whether the bytes of a line are a text. -/
def isText (line : List UInt8) : Bool :=
  (String.fromUTF8? ⟨line.toArray⟩).isSome

theorem isText_toUTF8 (s : String) : isText s.toUTF8.data.toList = true := by
  have hread : String.fromUTF8? s.toUTF8 = some s := dif_pos s.isValidUTF8
  rw [isText, Array.toArray_toList]
  exact congrArg Option.isSome hread

theorem linesFrom_line {line : List UInt8} (h : 10 ∉ line) (begun rest : List UInt8) :
    linesFrom begun (line ++ 10 :: rest) = endedLine (line.reverse ++ begun) :: lines rest := by
  induction line generalizing begun with
  | nil => simp [linesFrom, lines]
  | cons b line ih =>
    obtain ⟨hb, hline⟩ := not_or.1 (mt List.mem_cons.2 h)
    simp [linesFrom, Ne.symm hb, ih hline]

/-- A stream begins with the line in front of its first line end. -/
theorem lines_line {line : List UInt8} (h : 10 ∉ line) (rest : List UInt8) :
    lines (line ++ 10 :: rest) = endedLine line.reverse :: lines rest := by
  rw [lines, linesFrom_line h, List.append_nil]

/-- Lines can be read up to the first that is no text, in an ended stream and behind it. -/
theorem takeWhile_isText_lines_append (first rest : List UInt8) :
    (lines (first ++ 10 :: rest)).takeWhile isText =
      if (lines (first ++ [10])).all isText then
        lines (first ++ [10]) ++ (lines rest).takeWhile isText
      else (lines (first ++ [10])).takeWhile isText := by
  rw [lines_append]
  split_ifs with hall
  · exact List.takeWhile_append_of_pos (List.all_eq_true.1 hall)
  · rw [List.takeWhile_append, if_neg]
    intro hlength
    have hself := (List.takeWhile_prefix isText).eq_of_length hlength
    exact hall (List.all_eq_true.2 (List.takeWhile_eq_self_iff.1 hself))

/-! ## Blank lines -/

theorem startsNumeral_of_isWhitespace {c : Char} (h : isWhitespace c = true) :
    Json.startsNumeral c = false := by
  rw [Bool.eq_false_iff]
  intro hnumeral
  have hcode : c.toNat = 45 ∨ 48 ≤ c.toNat ∧ c.toNat ≤ 57 := by
    rw [Json.startsNumeral, Bool.or_eq_true, beq_iff_eq, Char.isDigit_iff_toNat] at hnumeral
    obtain rfl | hdigit := hnumeral
    · exact .inl rfl
    · exact .inr hdigit
  simp only [isWhitespace, whitespaceRuns, List.any_cons, List.any_nil, Bool.or_false,
    Bool.or_eq_true, decide_eq_true_eq] at h
  omega

theorem lex_of_isWhitespace {cs : List Char} (h : ∀ c ∈ cs, isWhitespace c = true) :
    Json.Token.lex cs = none ∨ Json.Token.lex cs = some [] := by
  fun_induction Json.Token.lex cs with
  | case1 => exact .inr rfl
  | case13 c rest _ _ _ _ _ _ _ _ _ _ _ ih => exact ih fun d hd => h d (List.mem_cons_of_mem c hd)
  | case14 | case15 | case17 => exact .inl rfl
  | case16 c rest _ _ _ _ _ _ _ _ _ _ _ hnumeral =>
    have hspace := startsNumeral_of_isWhitespace (h c List.mem_cons_self)
    exact absurd (hnumeral.symm.trans hspace) (by decide)
  -- No other token begins with whitespace.
  | _ => exact absurd (h _ List.mem_cons_self) (by decide)

/-- A text that shows nothing is no JSON value. -/
theorem parse?_of_isBlankLine {text : String} (h : isBlankLine text = true) :
    Json.parse? text = none := by
  rw [isBlankLine, List.all_eq_true] at h
  rw [Json.parse?]
  -- Without a token nothing is read, and no value is complete.
  obtain hlex | hlex := lex_of_isWhitespace h <;> rw [hlex] <;> rfl

end HeadUnit.Text
