import HeadUnit.Proofs.Envelope.RoundTrip
import HeadUnit.Proofs.Text.Utf8

/-!
# Texts of envelopes

The text of an envelope is fixed but for its tag, name, correlation identifier and parameters, and
a correlation identifier has at most ten digits.

## Main definitions

* `Envelope.identifierChars` — the correlation identifier in front of the other members.

## Main statements

* `Envelope.chars_encode` — the text of an envelope, part by part.
* `Envelope.size_encodeBytes` — the length of a frame without wide characters.
-/

namespace HeadUnit.Envelope

/-- The correlation identifier in front of the other members of a body. -/
def identifierChars (correlation : Option UInt32) : List Char :=
  (correlation.map fun n =>
    Json.quote "correlationID" ++ ':' :: Nat.toDigits 10 n.toNat ++ [',']).getD []

theorem chars_ofInt_toNat (n : UInt32) :
    (Json.ofInt n.toNat).chars = Nat.toDigits 10 n.toNat := by
  obtain ⟨low, high, hint⟩ := Json.ofInt_toNat n
  rw [hint, Json.chars, Json.renderInt, if_neg (by omega), Int.natAbs_natCast]

/-- The text of an envelope, from its tag to its parameters. -/
theorem chars_encode (e : Envelope) :
    e.encode.chars =
      '\x7b' :: Json.quote e.kind.tag ++ ':' :: '\x7b' :: identifierChars e.sentCorrelation ++
        Json.quote "name" ++ ':' :: Json.quote e.name ++ ',' :: Json.quote "parameters" ++
        ':' :: e.params.toJson.chars ++ ['\x7d', '\x7d'] := by
  rw [encode, body]
  cases e.sentCorrelation with
  | none => simp [Json.chars, Json.charsMembers, identifierChars]
  | some n => simp [Json.chars, Json.charsMembers, identifierChars, chars_ofInt_toNat]

/-- A frame without wide characters has a byte for each character of its text. -/
theorem size_encodeBytes (e : Envelope) (h : e.encode.chars.all Text.isNarrow = true) :
    e.encodeBytes.size = e.encode.chars.length := by
  rw [encodeBytes, ← Text.length_utf8, encodeText, Json.render, Text.length_utf8_ofList h]

theorem length_identifierChars_le (correlation : Option UInt32) :
    (identifierChars correlation).length ≤ 27 := by
  cases correlation with
  | none => decide
  | some n =>
    have hdigits : (Nat.toDigits 10 n.toNat).length ≤ 10 :=
      (Nat.length_toDigits_le_iff (by decide) (by decide)).2 (Nat.lt_trans n.toNat_lt (by decide))
    have hkey : (Json.quote "correlationID").length = 15 := by decide
    simp only [identifierChars, Option.map_some, Option.getD_some, List.length_append,
      List.length_cons, List.length_nil, hkey]
    omega

theorem all_isNarrow_identifierChars (correlation : Option UInt32) :
    (identifierChars correlation).all Text.isNarrow = true := by
  cases correlation with
  | none => rfl
  | some n =>
    have hdigits : (Nat.toDigits 10 n.toNat).all Text.isNarrow = true :=
      List.all_eq_true.2 fun c hc => by
        have hdigit := Nat.isDigit_of_mem_toDigits (by decide) (by decide) hc
        simp only [Char.isDigit, ge_iff_le, Bool.and_eq_true, decide_eq_true_eq] at hdigit
        exact decide_eq_true (UInt32.le_trans hdigit.2 (by decide))
    have hkey : (Json.quote "correlationID").all Text.isNarrow = true := by decide
    have hmarks : Text.isNarrow ':' = true ∧ Text.isNarrow ',' = true := by decide
    simp [identifierChars, hkey, hdigits, hmarks]

end HeadUnit.Envelope
