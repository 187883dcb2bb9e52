import HeadUnit.Json.Number
import HeadUnit.Text.Quoted

/-!
# JSON tokens

Strict JSON: blanks are the space, the tabulator and the two line ends; text has no raw control
characters and no escaped half of a surrogate pair.

## Main definitions

* `Json.Token` — punctuation and scalars.
* `Json.Token.lex` — a text as tokens, if every part of it is one.
-/

namespace HeadUnit.Json

inductive Token where
  | beginArray
  | endArray
  | beginObject
  | endObject
  | comma
  | colon
  | scalar (value : Json)
  | text (s : String)

/-! ## Quoted text -/

/-- Four hexadecimal digits. -/
def codeUnit? (a b c d : Char) : Option Nat := do
  let a ← Text.hexValue? a
  let b ← Text.hexValue? b
  let c ← Text.hexValue? c
  let d ← Text.hexValue? d
  some (((a * 16 + b) * 16 + c) * 16 + d)

def isLeading (unit : Nat) : Bool :=
  decide (0xD800 ≤ unit ∧ unit < 0xDC00)

def isTrailing (unit : Nat) : Bool :=
  decide (0xDC00 ≤ unit ∧ unit < 0xE000)

/-- An escaped code unit after its mark, and what follows it. -/
def escapedUnit? : List Char → Option (Nat × List Char)
  | a :: b :: c :: d :: rest => (codeUnit? a b c d).map (·, rest)
  | _ => none

/-- The character of the two halves of a surrogate pair. -/
def joinPair (leading trailing : Nat) : Char :=
  Char.ofNat (0x10000 + (leading - 0xD800) * 0x400 + (trailing - 0xDC00))

/-- The trailing half that has to follow the leading half `unit`: the character of both. -/
def pairWith? (unit : Nat) : List Char → Option (Char × List Char)
  | '\\' :: 'u' :: rest => do
    let (other, rest) ← escapedUnit? rest
    if isTrailing other then some (joinPair unit other, rest) else none
  | _ => none

/-- The character of an escaped code unit. The leading half of a surrogate pair takes the other
half with it. -/
def unicode? (s : List Char) : Option (Char × List Char) := do
  let (unit, rest) ← escapedUnit? s
  if isTrailing unit then none
  else if isLeading unit then pairWith? unit rest
  else some (Char.ofNat unit, rest)

/-- The character that an escape stands for, and what follows it. -/
def unescape? : List Char → Option (Char × List Char)
  | '"' :: rest => some ('"', rest)
  | '\\' :: rest => some ('\\', rest)
  | '/' :: rest => some ('/', rest)
  | 'b' :: rest => some ('\x08', rest)
  | 'f' :: rest => some ('\x0c', rest)
  | 'n' :: rest => some ('\n', rest)
  | 'r' :: rest => some ('\r', rest)
  | 't' :: rest => some ('\t', rest)
  | 'u' :: rest => unicode? rest
  | _ => none

theorem length_of_escapedUnit? {s rest : List Char} {n : Nat}
    (h : escapedUnit? s = some (n, rest)) : rest.length < s.length := by
  unfold escapedUnit? at h
  split at h <;> grind [Option.map_eq_some_iff]

theorem length_of_pairWith? {s rest : List Char} {n : Nat} {c : Char}
    (h : pairWith? n s = some (c, rest)) : rest.length < s.length := by
  unfold pairWith? at h
  split at h
  · obtain ⟨⟨other, rest'⟩, hu, h⟩ := Option.bind_eq_some_iff.1 h
    have := length_of_escapedUnit? hu
    grind
  · simp at h

theorem length_of_unicode? {s rest : List Char} {c : Char}
    (h : unicode? s = some (c, rest)) : rest.length < s.length := by
  obtain ⟨⟨unit, rest'⟩, hu, h⟩ := Option.bind_eq_some_iff.1 h
  have := length_of_escapedUnit? hu
  grind [→ length_of_pairWith?]

theorem length_of_unescape? {s rest : List Char} {c : Char}
    (h : unescape? s = some (c, rest)) : rest.length < s.length := by
  unfold unescape? at h
  split at h <;> grind [→ length_of_unicode?]

/-- The characters up to the closing quote, and what follows it. -/
def unquote? (s : List Char) : Option (List Char × List Char) :=
  match s with
  | [] => none
  | '"' :: rest => some ([], rest)
  | '\\' :: rest =>
    match _h : unescape? rest with
    | none => none
    | some (c, rest') => (unquote? rest').map fun (cs, rest) => (c :: cs, rest)
  | c :: rest =>
    if c.val < 0x20 then none
    else (unquote? rest).map fun (cs, rest) => (c :: cs, rest)
termination_by s.length
decreasing_by
  · have := length_of_unescape? _h
    grind
  · grind

theorem length_of_unquote? {s cs rest : List Char} (h : unquote? s = some (cs, rest)) :
    rest.length < s.length := by
  fun_induction unquote? s generalizing cs rest with
  | case1 => simp at h
  | case2 rest' => grind
  | case3 rest' hn => simp at h
  | case4 rest' c rest'' hu ih =>
    have := length_of_unescape? hu
    grind [Option.map_eq_some_iff]
  | case5 => simp at h
  | case6 => grind [Option.map_eq_some_iff]

/-! ## Lengths of numerals -/

theorem length_of_digits? {s ds rest : List Char} (h : digits? s = some (ds, rest)) :
    rest.length < s.length := by
  unfold digits? at h
  have := congrArg List.length (@List.takeWhile_append_dropWhile _ Char.isDigit s)
  have : s.takeWhile Char.isDigit ≠ [] := by grind
  have := List.length_pos_iff.2 this
  grind

theorem length_of_whole? {s ds rest : List Char} (h : whole? s = some (ds, rest)) :
    rest.length < s.length := by
  unfold whole? at h
  split at h
  · grind
  · exact length_of_digits? h

theorem length_of_fraction? {s rest : List Char} {ds : Option (List Char)}
    (h : fraction? s = some (ds, rest)) : rest.length ≤ s.length := by
  unfold fraction? at h
  split at h <;> grind [→ length_of_digits?, Option.map_eq_some_iff]

theorem length_of_signedDigits? {s rest : List Char} {n : Int}
    (h : signedDigits? s = some (n, rest)) : rest.length < s.length := by
  unfold signedDigits? at h
  split at h <;> grind [→ length_of_digits?, Option.map_eq_some_iff]

theorem length_of_exponent? {s rest : List Char} {n : Option Int}
    (h : exponent? s = some (n, rest)) : rest.length ≤ s.length := by
  unfold exponent? at h
  split at h <;> grind [→ length_of_signedDigits?, Option.map_eq_some_iff]

theorem length_sign (s : List Char) : (sign s).2.length ≤ s.length := by
  unfold sign
  split <;> simp

theorem Numeral.length_of_ofChars? {s rest : List Char} {n : Numeral}
    (h : Numeral.ofChars? s = some (n, rest)) : rest.length < s.length := by
  unfold Numeral.ofChars? at h
  have := length_sign s
  obtain ⟨⟨whole, s₁⟩, h₁, h⟩ := Option.bind_eq_some_iff.1 h
  obtain ⟨⟨fraction, s₂⟩, h₂, h⟩ := Option.bind_eq_some_iff.1 h
  obtain ⟨⟨exponent, s₃⟩, h₃, h⟩ := Option.bind_eq_some_iff.1 h
  grind [→ length_of_whole?, → length_of_fraction?, → length_of_exponent?]

/-! ## Tokens -/

def isBlank (c : Char) : Bool :=
  c == ' ' || c == '\n' || c == '\r' || c == '\t'

/-- Whether a token that starts with `c` can only be a numeral. -/
def startsNumeral (c : Char) : Bool :=
  c == '-' || c.isDigit

namespace Token

/-- A text as tokens, if every part of it is one. -/
def lex (s : List Char) : Option (List Token) :=
  match s with
  | [] => some []
  | '[' :: rest => (lex rest).map (.beginArray :: ·)
  | ']' :: rest => (lex rest).map (.endArray :: ·)
  | '\x7b' :: rest => (lex rest).map (.beginObject :: ·)
  | '\x7d' :: rest => (lex rest).map (.endObject :: ·)
  | ',' :: rest => (lex rest).map (.comma :: ·)
  | ':' :: rest => (lex rest).map (.colon :: ·)
  | 'n' :: 'u' :: 'l' :: 'l' :: rest => (lex rest).map (.scalar .null :: ·)
  | 't' :: 'r' :: 'u' :: 'e' :: rest => (lex rest).map (.scalar (.bool true) :: ·)
  | 'f' :: 'a' :: 'l' :: 's' :: 'e' :: rest => (lex rest).map (.scalar (.bool false) :: ·)
  | '"' :: rest =>
    match _h : unquote? rest with
    | none => none
    | some (cs, rest') => (lex rest').map (.text (String.ofList cs) :: ·)
  | c :: rest =>
    if isBlank c then lex rest
    else if startsNumeral c then
      match _h : Numeral.ofChars? (c :: rest) with
      | none => none
      | some (numeral, rest') =>
        match numeral.toJson? with
        | none => none
        | some value => (lex rest').map (.scalar value :: ·)
    else none
termination_by s.length
decreasing_by
  all_goals simp only [List.length_cons]
  all_goals try omega
  · exact Nat.lt_succ_of_lt (length_of_unquote? _h)
  · exact Numeral.length_of_ofChars? _h

end Token

end HeadUnit.Json
