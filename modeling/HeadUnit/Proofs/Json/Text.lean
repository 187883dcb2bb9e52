import HeadUnit.Json.Token

/-!
# Quoted text

What is written inside quotes is read as the text that was quoted, whatever characters the text
has.

## Main statements

* `Json.unquote?_escape_append` — one escaped character.
* `Json.unquote?_flatMap_escape` — the inside of a quoted text, up to the closing quote.
* `Json.length_lt_length_quote` — a quoted text is longer than the text.
-/

namespace HeadUnit.Json

variable {s rest : List Char} {c : Char}

/-! ## The equations of the reader -/

@[simp] theorem unquote?_quote (rest : List Char) : unquote? ('"' :: rest) = some ([], rest) := by
  rw [unquote?]

theorem unquote?_of_unescape? (h : unescape? s = some (c, rest)) :
    unquote? ('\\' :: s) = (unquote? rest).map fun (cs, rest) => (c :: cs, rest) := by
  rw [unquote?]
  split
  case h_1 hnone =>
    rw [h] at hnone
    cases hnone
  case h_2 hsome =>
    rw [h] at hsome
    cases hsome
    rfl

theorem unquote?_cons (hquote : c ≠ '"') (hbackslash : c ≠ '\\') (hcontrol : ¬ c.val < 0x20) :
    unquote? (c :: rest) = (unquote? rest).map fun (cs, rest) => (c :: cs, rest) := by
  rw [unquote?, if_neg hcontrol]
  · exact hquote
  · exact hbackslash

/-! ## Escapes -/

theorem codeUnit?_hexPair : ∀ n < 0x20,
    codeUnit? '0' '0' (Nat.digitChar (n / 16 % 16)) (Nat.digitChar (n % 16)) = some n := by
  decide

/-- An escaped control character is read as the character. -/
theorem unescape?_hexPair (h : c.toNat < 0x20) (rest : List Char) :
    unescape? ('u' :: '0' :: '0' :: (hexPair c.toNat ++ rest)) = some (c, rest) := by
  have hunit := codeUnit?_hexPair c.toNat h
  have htrailing : isTrailing c.toNat = false := by
    simp [isTrailing]
    omega
  have hleading : isLeading c.toNat = false := by
    simp [isLeading]
    omega
  simp [unescape?, unicode?, escapedUnit?, hexPair, hunit, htrailing, hleading]

/-- A character stands for itself inside quotes, or an escape stands for it. -/
theorem escape_cases (c : Char) :
    (∃ t, escape c = '\\' :: t ∧ ∀ rest, unescape? (t ++ rest) = some (c, rest)) ∨
      escape c = [c] ∧ c ≠ '"' ∧ c ≠ '\\' ∧ ¬ c.val < 0x20 := by
  unfold escape
  iterate 7
    split
    · subst_vars
      exact .inl ⟨_, rfl, fun _ => rfl⟩
  split
  case isTrue hcontrol => exact .inl ⟨_, rfl, unescape?_hexPair hcontrol⟩
  case isFalse hcontrol => exact .inr ⟨rfl, ‹_›, ‹_›, hcontrol⟩

/-- A character is read back from its escaped form. -/
theorem unquote?_escape_append (c : Char) (rest : List Char) :
    unquote? (escape c ++ rest) = (unquote? rest).map fun (cs, rest) => (c :: cs, rest) := by
  obtain ⟨t, hescape, hread⟩ | ⟨hescape, hquote, hbackslash, hcontrol⟩ := escape_cases c
  · rw [hescape]
    exact unquote?_of_unescape? (hread rest)
  · rw [hescape]
    exact unquote?_cons hquote hbackslash hcontrol

/-- The text inside quotes is read back, up to the closing quote. -/
theorem unquote?_flatMap_escape (cs rest : List Char) :
    unquote? (cs.flatMap escape ++ '"' :: rest) = some (cs, rest) := by
  induction cs with
  | nil => exact unquote?_quote rest
  | cons c cs ih =>
    rw [List.flatMap_cons, List.append_assoc, unquote?_escape_append, ih]
    rfl

/-! ## Lengths -/

theorem length_le_length_flatMap_escape (cs : List Char) :
    cs.length ≤ (cs.flatMap escape).length := by
  induction cs with
  | nil => exact Nat.le_refl 0
  | cons c cs ih =>
    have hpos : 0 < (escape c).length := by
      obtain ⟨t, hescape, -⟩ | ⟨hescape, -⟩ := escape_cases c <;> simp [hescape]
    rw [List.flatMap_cons, List.length_append, List.length_cons]
    omega

theorem length_lt_length_quote (s : String) : s.length < (quote s).length := by
  have hle := length_le_length_flatMap_escape s.toList
  rw [String.length_toList] at hle
  simp only [quote, List.length_cons, List.length_append, List.length_nil]
  omega

end HeadUnit.Json
