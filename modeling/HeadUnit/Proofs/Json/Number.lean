import HeadUnit.Json.Number

/-!
# Numbers through text

A numeral is read the same in front of any text that cannot make it longer, and the decimal digits
of an integer are read as the integer. Whether a double is read back depends on the double: the
shortest digits determine it, but the reader rounds twice.

## Main definitions

* `Json.EndsNumeral` — a text that cannot make a numeral in front of it longer.
* `Binary64.ReadsBack` — the printed digits of a double are read as the double.

## Main statements

* `Json.Numeral.ofChars?_append` — reading a numeral in front of a text that ends it.
* `Json.Numeral.ofChars?_renderInt`, `Json.Numeral.toJson?_ofInt` — integers are read back.
-/

namespace HeadUnit

namespace Json

/-- The text cannot make a numeral in front of it longer. -/
def EndsNumeral (rest : List Char) : Prop :=
  ∀ c ∈ rest.head?, c.isDigit = false ∧ c ≠ '-' ∧ c ≠ '.' ∧ c ≠ 'e' ∧ c ≠ 'E'

theorem endsNumeral_nil : EndsNumeral [] := by
  simp [EndsNumeral]

theorem endsNumeral_comma (rest : List Char) : EndsNumeral (',' :: rest) := by
  simp [EndsNumeral]

theorem endsNumeral_endArray (rest : List Char) : EndsNumeral (']' :: rest) := by
  simp [EndsNumeral]

theorem endsNumeral_endObject (rest : List Char) : EndsNumeral ('\x7d' :: rest) := by
  simp [EndsNumeral]

/-! ## Parts of a numeral -/

section Append

variable {s r rest : List Char}

theorem takeWhile_isDigit_of_endsNumeral (hrest : EndsNumeral rest) :
    rest.takeWhile Char.isDigit = [] := by
  cases rest with
  | nil => rfl
  | cons c _ => simp [(hrest c rfl).1]

theorem dropWhile_isDigit_of_endsNumeral (hrest : EndsNumeral rest) :
    rest.dropWhile Char.isDigit = rest := by
  cases rest with
  | nil => rfl
  | cons c _ => simp [(hrest c rfl).1]

theorem digits?_append (hrest : EndsNumeral rest) {ds : List Char}
    (h : digits? s = some (ds, r)) : digits? (s ++ rest) = some (ds, r ++ rest) := by
  have htake : (s ++ rest).takeWhile Char.isDigit = s.takeWhile Char.isDigit := by
    rw [List.takeWhile_append, takeWhile_isDigit_of_endsNumeral hrest, List.append_nil]
    split
    case isTrue hall => exact ((List.takeWhile_prefix _).eq_of_length hall).symm
    case isFalse => rfl
  have hdrop : (s ++ rest).dropWhile Char.isDigit = s.dropWhile Char.isDigit ++ rest := by
    rw [List.dropWhile_append, dropWhile_isDigit_of_endsNumeral hrest]
    split
    case isTrue hnil => rw [List.isEmpty_iff.1 hnil, List.nil_append]
    case isFalse => rfl
  unfold digits? at h ⊢
  dsimp only at h ⊢
  rw [htake, hdrop]
  split at h
  case isTrue => cases h
  case isFalse hne =>
    cases h
    rw [if_neg hne]

theorem whole?_append (hrest : EndsNumeral rest) {ds : List Char}
    (h : whole? s = some (ds, r)) : whole? (s ++ rest) = some (ds, r ++ rest) := by
  unfold whole? at h
  split at h
  case h_1 =>
    cases h
    rfl
  case h_2 hzero =>
    have happend := digits?_append hrest h
    obtain ⟨c, s, rfl⟩ : ∃ c s', s = c :: s' := List.exists_cons_of_ne_nil (by rintro rfl; cases h)
    rw [List.cons_append] at happend ⊢
    rw [whole?.eq_2 _ fun t ht => hzero s (by grind)]
    exact happend

/-- Other characters of a numeral do not come from the text after it. -/
theorem exists_cons_of_append (hrest : EndsNumeral rest) {c : Char} {t : List Char}
    (hc : c ∈ ['-', '.', 'e', 'E']) (h : s ++ rest = c :: t) : ∃ s', s = c :: s' := by
  cases s with
  | nil =>
    obtain ⟨-, hminus, hpoint, hlower, hupper⟩ := hrest c (by rw [← List.nil_append rest, h]; rfl)
    simp [hminus, hpoint, hlower, hupper] at hc
  | cons d s =>
    cases h
    exact ⟨s, rfl⟩

/-- What stands for a part is read alike in front of more text if the part is. -/
theorem map_append {α β : Type} (g : α → β) {part longer : Option (α × List Char)} {b : β}
    (hpart : ∀ a r, part = some (a, r) → longer = some (a, r ++ rest))
    (h : (part.map fun (a, r) => (g a, r)) = some (b, r)) :
    (longer.map fun (a, r) => (g a, r)) = some (b, r ++ rest) := by
  obtain ⟨⟨a, r'⟩, hread, heq⟩ := Option.map_eq_some_iff.1 h
  cases heq
  rw [hpart a _ hread]
  rfl

theorem fraction?_append (hrest : EndsNumeral rest) {ds : Option (List Char)}
    (h : fraction? s = some (ds, r)) : fraction? (s ++ rest) = some (ds, r ++ rest) := by
  unfold fraction? at h
  split at h
  case h_1 s => exact map_append some (fun _ _ => digits?_append hrest) h
  case h_2 hpoint =>
    cases h
    apply fraction?.eq_2
    intro t ht
    obtain ⟨s', rfl⟩ := exists_cons_of_append hrest (by decide) ht
    exact hpoint s' rfl

theorem signedDigits?_append (hrest : EndsNumeral rest) {n : Int}
    (h : signedDigits? s = some (n, r)) : signedDigits? (s ++ rest) = some (n, r ++ rest) := by
  unfold signedDigits? at h
  split at h
  case h_1 s =>
    exact map_append (fun ds => -(natOfDigits ds : Int)) (fun _ _ => digits?_append hrest) h
  case h_2 s =>
    exact map_append (fun ds => (natOfDigits ds : Int)) (fun _ _ => digits?_append hrest) h
  case h_3 hminus hplus =>
    obtain ⟨c, s, rfl⟩ : ∃ c s', s = c :: s' := List.exists_cons_of_ne_nil (by rintro rfl; cases h)
    rw [signedDigits?.eq_3]
    · exact map_append (fun ds => (natOfDigits ds : Int)) (fun _ _ => digits?_append hrest) h
    · exact fun t ht => hminus s (by grind)
    · exact fun t ht => hplus s (by grind)

theorem exponent?_append (hrest : EndsNumeral rest) {n : Option Int}
    (h : exponent? s = some (n, r)) : exponent? (s ++ rest) = some (n, r ++ rest) := by
  unfold exponent? at h
  split at h
  case h_1 s => exact map_append some (fun _ _ => signedDigits?_append hrest) h
  case h_2 s => exact map_append some (fun _ _ => signedDigits?_append hrest) h
  case h_3 hlower hupper =>
    cases h
    apply exponent?.eq_3
    · intro t ht
      obtain ⟨s', rfl⟩ := exists_cons_of_append hrest (by decide) ht
      exact hlower s' rfl
    · intro t ht
      obtain ⟨s', rfl⟩ := exists_cons_of_append hrest (by decide) ht
      exact hupper s' rfl

theorem sign_of_head?_ne {s : List Char} (h : s.head? ≠ some '-') : sign s = (false, s) :=
  sign.eq_2 s fun t ht => h (by rw [ht]; rfl)

theorem sign_append (hrest : EndsNumeral rest) (s : List Char) :
    sign (s ++ rest) = ((sign s).1, (sign s).2 ++ rest) := by
  by_cases hminus : s.head? = some '-'
  · obtain ⟨t, rfl⟩ := List.head?_eq_some_iff.1 hminus
    rfl
  · have hhead : (s ++ rest).head? ≠ some '-' := by
      intro hhead
      obtain ⟨t, ht⟩ := List.head?_eq_some_iff.1 hhead
      obtain ⟨s', rfl⟩ := exists_cons_of_append hrest (by decide) ht
      exact hminus rfl
    rw [sign_of_head?_ne hminus, sign_of_head?_ne hhead]

namespace Numeral

/-- The parts of a numeral, as they are read one after another. -/
theorem ofChars?_eq_some_iff {n : Numeral} : ofChars? s = some (n, r) ↔
    (sign s).1 = n.negative ∧ ∃ s₁ s₂, whole? (sign s).2 = some (n.whole, s₁) ∧
      fraction? s₁ = some (n.fraction, s₂) ∧ exponent? s₂ = some (n.exponent, r) := by
  unfold ofChars?
  obtain ⟨negative, s⟩ := sign s
  simp only [Option.bind_eq_bind, Option.bind_eq_some_iff, Option.some.injEq, Prod.exists,
    Prod.mk.injEq]
  constructor
  · rintro ⟨whole, s₁, h₁, fraction, s₂, h₂, exponent, s₃, h₃, rfl, rfl⟩
    exact ⟨rfl, s₁, s₂, h₁, h₂, h₃⟩
  · rintro ⟨rfl, s₁, s₂, h₁, h₂, h₃⟩
    exact ⟨_, s₁, h₁, _, s₂, h₂, _, r, h₃, rfl, rfl⟩

/-- A numeral is read the same in front of a text that ends it. -/
theorem ofChars?_append (hrest : EndsNumeral rest) {n : Numeral}
    (h : ofChars? s = some (n, r)) : ofChars? (s ++ rest) = some (n, r ++ rest) := by
  obtain ⟨hsign, s₁, s₂, h₁, h₂, h₃⟩ := ofChars?_eq_some_iff.1 h
  rw [ofChars?_eq_some_iff, sign_append hrest]
  exact ⟨hsign, s₁ ++ rest, s₂ ++ rest, whole?_append hrest h₁, fraction?_append hrest h₂,
    exponent?_append hrest h₃⟩

theorem startsNumeral_of_whole? {ds : List Char} (h : whole? s = some (ds, r)) :
    ∃ c t, s = c :: t ∧ c.isDigit = true := by
  unfold whole? at h
  split at h
  case h_1 t => exact ⟨'0', t, rfl, rfl⟩
  case h_2 =>
    unfold digits? at h
    cases s with
    | nil => cases h
    | cons c t =>
      by_cases hdigit : c.isDigit = true
      · exact ⟨c, t, rfl, hdigit⟩
      · simp [hdigit] at h

/-- A numeral starts with the minus or a digit. -/
theorem exists_cons_of_ofChars? {n : Numeral} (h : ofChars? s = some (n, r)) :
    ∃ c t, s = c :: t ∧ (c = '-' ∨ c.isDigit = true) := by
  obtain ⟨-, s₁, -, hwhole, -⟩ := ofChars?_eq_some_iff.1 h
  by_cases hminus : s.head? = some '-'
  · obtain ⟨t, rfl⟩ := List.head?_eq_some_iff.1 hminus
    exact ⟨'-', t, rfl, .inl rfl⟩
  · rw [sign_of_head?_ne hminus] at hwhole
    obtain ⟨c, t, rfl, hdigit⟩ := startsNumeral_of_whole? hwhole
    exact ⟨c, t, rfl, .inr hdigit⟩

end Numeral

end Append

/-! ## Integers -/

theorem head?_toDigits_ne_zero (n : Nat) (h : 0 < n) :
    (Nat.toDigits 10 n).head? ≠ some '0' := by
  induction n using Nat.strongRecOn with
  | ind n ih =>
    by_cases hlt : n < 10
    · have hdigit : ∀ d < 10, 0 < d → [Nat.digitChar d].head? ≠ some '0' := by decide
      rw [Nat.toDigits_of_lt_base hlt]
      exact hdigit n hlt h
    · have hhead := ih (n / 10) (by omega) (by omega)
      rw [Nat.toDigits_of_base_le (by decide) (by omega), List.head?_append]
      cases hds : (Nat.toDigits 10 (n / 10)).head? with
      | none => exact absurd (List.head?_eq_none_iff.1 hds) Nat.toDigits_ne_nil
      | some c => simpa [hds] using hhead

theorem digits?_toDigits (n : Nat) :
    digits? (Nat.toDigits 10 n) = some (Nat.toDigits 10 n, []) := by
  have hall : ∀ c ∈ Nat.toDigits 10 n, c.isDigit = true := fun c hc =>
    Nat.isDigit_of_mem_toDigits (by decide) (by decide) hc
  have htake : (Nat.toDigits 10 n ++ []).takeWhile Char.isDigit = Nat.toDigits 10 n ++ [] :=
    List.takeWhile_append_of_pos hall
  have hdrop : (Nat.toDigits 10 n ++ []).dropWhile Char.isDigit = [] :=
    List.dropWhile_append_of_pos hall
  rw [List.append_nil] at htake hdrop
  unfold digits?
  dsimp only
  rw [htake, hdrop, if_neg (by simp)]

theorem whole?_toDigits (n : Nat) :
    whole? (Nat.toDigits 10 n) = some (Nat.toDigits 10 n, []) := by
  by_cases hzero : n = 0
  · subst hzero
    rfl
  · rw [whole?.eq_2, digits?_toDigits]
    intro t ht
    exact head?_toDigits_ne_zero n (by omega) (by rw [ht]; rfl)

namespace Numeral

theorem le_ofDigitChars (ds : List Char) (m : Nat) : m ≤ Nat.ofDigitChars 10 ds m := by
  induction ds generalizing m with
  | nil => exact Nat.le_refl m
  | cons c rest ih =>
    rw [Nat.ofDigitChars_cons]
    have := ih (10 * m + (c.toNat - '0'.toNat))
    omega

/-- The digits of a number that fits a word are all gathered. -/
theorem foldl_pushWhole (ds : List Char) (m : Nat) (h : Nat.ofDigitChars 10 ds m < UInt64.size) :
    ds.foldl pushWhole ⟨m, 0⟩ = ⟨Nat.ofDigitChars 10 ds m, 0⟩ := by
  induction ds generalizing m with
  | nil => rfl
  | cons c rest ih =>
    rw [Nat.ofDigitChars_cons] at h ⊢
    have hdigit : m * 10 + digitValue c = 10 * m + (c.toNat - '0'.toNat) := by
      rw [digitValue, Nat.mul_comm]
    have hfits : fits m (digitValue c) = true := by
      have := le_ofDigitChars rest (10 * m + (c.toNat - '0'.toNat))
      rw [fits, hdigit, decide_eq_true_iff]
      omega
    have hpush : pushWhole ⟨m, 0⟩ c = ⟨10 * m + (c.toNat - '0'.toNat), 0⟩ := by
      simp [pushWhole, hfits, hdigit]
    rw [List.foldl_cons, hpush]
    exact ih _ h

theorem gatherWhole_toDigits (n : Nat) (h : n < UInt64.size) :
    gatherWhole (Nat.toDigits 10 n) = ⟨n, 0⟩ := by
  have hvalue : Nat.ofDigitChars 10 (Nat.toDigits 10 n) 0 = n := Nat.ofDigitChars_ten_toDigits
  rw [gatherWhole, foldl_pushWhole _ _ (by omega), hvalue]

/-- The numeral of an integer. -/
def ofInt (n : Int) : Numeral :=
  ⟨decide (n < 0), Nat.toDigits 10 n.natAbs, none, none⟩

theorem sign_renderInt (n : Int) :
    sign (renderInt n) = (decide (n < 0), Nat.toDigits 10 n.natAbs) := by
  unfold renderInt
  split
  case isTrue hneg => simp [sign, hneg]
  case isFalse hneg =>
    rw [sign_of_head?_ne, decide_eq_false hneg]
    intro hminus
    have hdigit := Nat.isDigit_of_mem_toDigits (by decide) (by decide)
      (List.mem_of_mem_head? hminus)
    exact absurd hdigit (by decide)

theorem ofChars?_renderInt (n : Int) : ofChars? (renderInt n) = some (ofInt n, []) := by
  rw [ofChars?_eq_some_iff, sign_renderInt]
  exact ⟨rfl, [], [], whole?_toDigits n.natAbs, rfl, rfl⟩

/-- An integer of sixty-four bits comes back. -/
theorem toJson?_ofInt (n : Int) (low : -0x8000000000000000 ≤ n) (high : n < 0x10000000000000000) :
    (ofInt n).toJson? = some (.integer n low high) := by
  have hsize : UInt64.size = 0x10000000000000000 := rfl
  have hgather : gatherWhole (ofInt n).whole = ⟨n.natAbs, 0⟩ :=
    gatherWhole_toDigits _ (by omega)
  have hint : (ofInt n).toInt? = some n := by
    unfold toInt?
    rw [hgather]
    by_cases hneg : n < 0
    · have hrange : ¬ (n.natAbs = 0 ∨ 0x8000000000000000 < n.natAbs) := by omega
      have habs : -(n.natAbs : Int) = n := by omega
      simp only [ofInt, hneg, hrange, habs, decide_true, Option.isSome_none, Bool.or_self,
        bne_self_eq_false, Bool.false_eq_true, if_true, if_false]
    · have habs : (n.natAbs : Int) = n := by omega
      simp only [ofInt, hneg, habs, decide_false, Option.isSome_none, Bool.or_self,
        bne_self_eq_false, Bool.false_eq_true, if_false]
  rw [toJson?, hint]
  exact congrArg some (dif_pos ⟨low, high⟩)

end Numeral

end Json

/-- The printed digits of the double are read as the double. -/
def Binary64.ReadsBack (x : Binary64) : Prop :=
  ∃ n, Json.Numeral.ofChars? (x.render Json.floatLayout) = some (n, []) ∧
    n.toJson? = some (.ofFloat x)

end HeadUnit
