import HeadUnit.Proofs.Decimal.Shortest
import HeadUnit.Proofs.Json.Number

/-!
# The text of doubles

The text of a decimal is read as one numeral, whose digits all fit the significand. In positional
form a whole number gets a zero after the point, so its significand is ten times what the padded
digits make; otherwise the significand is the number that the decimal's digits make.

## Main definitions

* `Decimal.Reads` — the significand and the power of ten that a decimal is read with.
* `Decimal.HasNumeral` — texts that are read as a numeral with these two.

## Main statements

* `Json.Numeral.toFloat?_eq` — the value of a numeral whose digits all fit.
* `Decimal.exists_reads_render` — what the text of a decimal is read as.
-/

namespace HeadUnit

namespace Json

variable {w f ds rest : List Char}

/-! ## Digits in front of other text -/

theorem digits?_append_of_isDigit (hds : ∀ c ∈ ds, c.isDigit = true) (hne : ds ≠ [])
    (hrest : ∀ c ∈ rest.head?, c.isDigit = false) : digits? (ds ++ rest) = some (ds, rest) := by
  have htake : rest.takeWhile Char.isDigit = [] := by
    cases rest with
    | nil => rfl
    | cons c _ => simp [hrest c rfl]
  have hdrop : rest.dropWhile Char.isDigit = rest := by
    cases rest with
    | nil => rfl
    | cons c _ => simp [hrest c rfl]
  unfold digits?
  dsimp only
  rw [List.takeWhile_append_of_pos hds, List.dropWhile_append_of_pos hds, htake, hdrop,
    List.append_nil, if_neg (by simpa using hne)]

/-- Digits without a superfluous zero in front. -/
structure IsWhole (w : List Char) : Prop where
  isDigit : ∀ c ∈ w, c.isDigit = true
  head : w = ['0'] ∨ w ≠ [] ∧ w.head? ≠ some '0'

theorem IsWhole.ne_nil (hw : IsWhole w) : w ≠ [] := by
  rcases hw.head with rfl | ⟨hne, -⟩
  · exact List.cons_ne_nil _ _
  · exact hne

theorem whole?_append_of_isWhole (hw : IsWhole w) (hrest : ∀ c ∈ rest.head?, c.isDigit = false) :
    whole? (w ++ rest) = some (w, rest) := by
  rcases hw.head with rfl | ⟨hne, hzero⟩
  · rfl
  · rw [whole?.eq_2, digits?_append_of_isDigit hw.isDigit hne hrest]
    intro t ht
    obtain ⟨c, w, rfl⟩ := List.exists_cons_of_ne_nil hne
    exact hzero (by cases ht; rfl)

theorem sign_append_of_isWhole (hw : IsWhole w) (rest : List Char) :
    sign (w ++ rest) = (false, w ++ rest) := by
  apply sign_of_head?_ne
  obtain ⟨c, w, rfl⟩ := List.exists_cons_of_ne_nil hw.ne_nil
  rintro ⟨⟩
  exact absurd (hw.isDigit '-' List.mem_cons_self) (by decide)

/-! ## Numerals -/

namespace Numeral

/-- Positional form. -/
theorem ofChars?_positional (hw : IsWhole w) (hf : ∀ c ∈ f, c.isDigit = true) (hne : f ≠ []) :
    ofChars? (w ++ '.' :: f) = some (⟨false, w, some f, none⟩, []) := by
  rw [ofChars?_eq_some_iff, sign_append_of_isWhole hw]
  refine ⟨rfl, '.' :: f, [], whole?_append_of_isWhole hw (by simp), ?_, rfl⟩
  have hdigits : digits? (f ++ []) = some (f, []) := digits?_append_of_isDigit hf hne (by simp)
  rw [fraction?, ← List.append_nil f, hdigits, List.append_nil]
  rfl

theorem natOfDigits_eq (ds : List Char) : natOfDigits ds = Nat.ofDigitChars 10 ds 0 := by
  rw [natOfDigits, Nat.ofDigitChars_eq_foldl]
  congr 1
  funext n c
  rw [digitValue, Nat.mul_comm]

/-- The exponent part of a decimal. -/
theorem exponent?_toDigits (n : Int) :
    exponent? ('e' :: (if n < 0 then '-' else '+') :: Nat.toDigits 10 n.natAbs) =
      some (some n, []) := by
  have hvalue : natOfDigits (Nat.toDigits 10 n.natAbs) = n.natAbs := by
    rw [natOfDigits_eq, Nat.ofDigitChars_ten_toDigits]
  rw [exponent?]
  split
  case isTrue hneg =>
    rw [signedDigits?, digits?_toDigits, Option.map_some, Option.map_some]
    dsimp only
    rw [hvalue]
    congr 3
    omega
  case isFalse hneg =>
    rw [signedDigits?, digits?_toDigits, Option.map_some, Option.map_some]
    dsimp only
    rw [hvalue]
    congr 3
    omega

/-- A number of one digit with an exponent. -/
theorem ofChars?_scientific_single (hw : IsWhole w) (n : Int) :
    ofChars? (w ++ 'e' :: (if n < 0 then '-' else '+') :: Nat.toDigits 10 n.natAbs) =
      some (⟨false, w, none, some n⟩, []) := by
  rw [ofChars?_eq_some_iff, sign_append_of_isWhole hw]
  exact ⟨rfl, _, _, whole?_append_of_isWhole hw (by simp), rfl, exponent?_toDigits n⟩

/-- A number with a fraction and an exponent. -/
theorem ofChars?_scientific (hw : IsWhole w) (hf : ∀ c ∈ f, c.isDigit = true) (hne : f ≠ [])
    (n : Int) : ofChars? (w ++ '.' :: f ++ 'e' :: (if n < 0 then '-' else '+') ::
      Nat.toDigits 10 n.natAbs) = some (⟨false, w, some f, some n⟩, []) := by
  rw [List.append_assoc, ofChars?_eq_some_iff, sign_append_of_isWhole hw]
  refine ⟨rfl, _, _, whole?_append_of_isWhole hw (by simp), ?_, exponent?_toDigits n⟩
  rw [List.cons_append, fraction?, digits?_append_of_isDigit hf hne (by simp)]
  rfl

/-- A minus in front of a numeral without sign. -/
theorem ofChars?_minus {s : List Char} {n : Numeral} (h : ofChars? s = some (n, []))
    (hsign : n.negative = false) :
    ofChars? ('-' :: s) = some ({ n with negative := true }, []) := by
  obtain ⟨hfalse, hparts⟩ := ofChars?_eq_some_iff.1 h
  rw [hsign] at hfalse
  have hsame : (sign s).2 = s := by
    unfold sign at hfalse ⊢
    split at hfalse
    · cases hfalse
    · rfl
  rw [hsame] at hparts
  exact ofChars?_eq_some_iff.2 ⟨rfl, hparts⟩

/-! ## Values -/

theorem gatherWhole_eq (h : Nat.ofDigitChars 10 w 0 < UInt64.size) :
    gatherWhole w = ⟨Nat.ofDigitChars 10 w 0, 0⟩ :=
  foldl_pushWhole w 0 h

theorem gatherFraction_eq (f : List Char) (m : Nat) (h : Nat.ofDigitChars 10 f m < UInt64.size) :
    gatherFraction m f = (Nat.ofDigitChars 10 f m, f.length) := by
  induction f generalizing m with
  | nil => rfl
  | cons c rest ih =>
    rw [Nat.ofDigitChars_cons] at h ⊢
    have hdigit : m * 10 + digitValue c = 10 * m + (c.toNat - '0'.toNat) := by
      rw [digitValue, Nat.mul_comm]
    have hfits : fits m (digitValue c) = true := by
      have := le_ofDigitChars rest (10 * m + (c.toNat - '0'.toNat))
      rw [fits, hdigit, decide_eq_true_iff]
      omega
    rw [gatherFraction, if_pos hfits, hdigit, ih _ h]
    rfl

/-- The value of a numeral without sign whose digits all fit the significand. -/
theorem toFloat?_eq {n : Numeral} (hsign : n.negative = false)
    (h : Nat.ofDigitChars 10 (n.whole ++ n.fraction.getD []) 0 < UInt64.size) :
    n.toFloat? = scale (.ofNat (Nat.ofDigitChars 10 (n.whole ++ n.fraction.getD []) 0))
      (n.exponent.getD 0 - (n.fraction.getD []).length) := by
  rw [Nat.ofDigitChars_append] at h ⊢
  have hwhole : Nat.ofDigitChars 10 n.whole 0 < UInt64.size :=
    (le_ofDigitChars _ _).trans_lt h
  unfold toFloat?
  dsimp only
  rw [gatherWhole_eq hwhole, gatherFraction_eq _ _ h, hsign]
  simp only [Bool.false_eq_true, if_false, Option.map_id', Nat.cast_zero]
  congr 1
  omega

end Numeral

end Json

/-! ## Decimals -/

namespace Decimal

/-- The significand and the power of ten that the decimal of a grid point is read with. Whole
numbers below `10 ^ 16` have a zero after the point, which is gathered too. -/
inductive Reads (point : Nat) (step : Int) : Nat → Int → Prop
  | digits : Reads point step point step
  | padded (hstep : 0 ≤ step) (hlength : (Nat.toDigits 10 point).length + step ≤ 16) :
    Reads point step (10 * (10 ^ step.toNat * point)) (-1)

variable {point : Nat} {step : Int}

theorem isWhole_toDigits (n : Nat) : Json.IsWhole (Nat.toDigits 10 n) where
  isDigit _ hc := Nat.isDigit_of_mem_toDigits (by decide) (by decide) hc
  head := by
    by_cases hzero : n = 0
    · exact .inl (by rw [hzero]; rfl)
    · exact .inr ⟨Nat.toDigits_ne_nil, Json.head?_toDigits_ne_zero n (by omega)⟩

theorem isWhole_singleton {c : Char} (hc : c.isDigit = true) : Json.IsWhole [c] where
  isDigit := List.forall_mem_singleton.2 hc
  head := by
    by_cases hzero : c = '0'
    · exact .inl (by rw [hzero])
    · exact .inr ⟨List.cons_ne_nil _ _, by simpa using hzero⟩

theorem ofDigitChars_zeros_append (n : Nat) (ds : List Char) :
    Nat.ofDigitChars 10 (List.replicate n '0' ++ ds) 0 = Nat.ofDigitChars 10 ds 0 := by
  rw [Nat.ofDigitChars_append, Nat.ofDigitChars_replicate_zero, Nat.mul_zero]

/-- The text of a decimal is read as a numeral with a fraction or an exponent, and all digits of
the numeral fit the significand. -/
def HasNumeral (text : List Char) (significand : Nat) (exponent : Int) : Prop :=
  ∃ n : Json.Numeral, Json.Numeral.ofChars? text = some (n, []) ∧ n.negative = false ∧
    (n.fraction.isSome || n.exponent.isSome) = true ∧
    Nat.ofDigitChars 10 (n.whole ++ n.fraction.getD []) 0 = significand ∧
    n.exponent.getD 0 - (n.fraction.getD []).length = exponent

theorem hasNumeral_scientific (point : Nat) (n : Int) :
    HasNumeral (pointAfterFirst (Nat.toDigits 10 point) ++
      'e' :: (if n < 0 then '-' else '+') :: Nat.toDigits 10 n.natAbs) point
      (n + 1 - (Nat.toDigits 10 point).length) := by
  have hdigits := isWhole_toDigits point
  have hvalue : Nat.ofDigitChars 10 (Nat.toDigits 10 point) 0 = point :=
    Nat.ofDigitChars_ten_toDigits
  generalize Nat.toDigits 10 point = ds at *
  obtain ⟨d, rest, rfl⟩ := List.exists_cons_of_ne_nil hdigits.ne_nil
  obtain ⟨hd, hrest⟩ := List.forall_mem_cons.1 hdigits.isDigit
  cases rest with
  | nil =>
    refine ⟨_, Json.Numeral.ofChars?_scientific_single hdigits n, rfl, rfl, hvalue, ?_⟩
    simp
  | cons c rest =>
    refine ⟨_, Json.Numeral.ofChars?_scientific (isWhole_singleton hd) hrest
      (List.cons_ne_nil _ _) n, rfl, rfl, hvalue, ?_⟩
    simp

theorem hasNumeral_small (point zeros : Nat) :
    HasNumeral ('0' :: '.' :: List.replicate zeros '0' ++ Nat.toDigits 10 point) point
      (-(zeros + (Nat.toDigits 10 point).length : Nat)) := by
  have hdigits := isWhole_toDigits point
  have hf : ∀ c ∈ List.replicate zeros '0' ++ Nat.toDigits 10 point, c.isDigit = true := by
    intro c hc
    rcases List.mem_append.1 hc with hc | hc
    · rw [List.eq_of_mem_replicate hc]
      rfl
    · exact hdigits.isDigit c hc
  refine ⟨_, Json.Numeral.ofChars?_positional (w := ['0']) (isWhole_singleton rfl) hf
    (by simp), rfl, rfl, ?_, ?_⟩
  · change Nat.ofDigitChars 10 (List.replicate zeros '0' ++ Nat.toDigits 10 point) 0 = point
    rw [ofDigitChars_zeros_append, Nat.ofDigitChars_ten_toDigits]
  · simp

theorem hasNumeral_padded (point zeros : Nat) (hzero : point = 0 → zeros = 0) :
    HasNumeral (Nat.toDigits 10 point ++ List.replicate zeros '0' ++ '.' :: ['0'])
      (10 * (10 ^ zeros * point)) (-1) := by
  have hdigits := isWhole_toDigits point
  have hw : Json.IsWhole (Nat.toDigits 10 point ++ List.replicate zeros '0') := by
    refine ⟨fun c hc => ?_, ?_⟩
    · rcases List.mem_append.1 hc with hc | hc
      · exact hdigits.isDigit c hc
      · rw [List.eq_of_mem_replicate hc]
        rfl
    · by_cases hpoint : point = 0
      · rw [hzero hpoint, hpoint]
        exact .inl rfl
      · have hhead := Json.head?_toDigits_ne_zero point (by omega)
        obtain ⟨d, rest, hds⟩ := List.exists_cons_of_ne_nil hdigits.ne_nil
        rw [hds] at hhead ⊢
        exact .inr ⟨by simp, hhead⟩
  refine ⟨_, Json.Numeral.ofChars?_positional hw (by simp) (by simp), rfl, rfl, ?_, rfl⟩
  change Nat.ofDigitChars 10 (Nat.toDigits 10 point ++ List.replicate zeros '0' ++
    List.replicate 1 '0') 0 = _
  rw [Nat.ofDigitChars_append, Nat.ofDigitChars_append, Nat.ofDigitChars_replicate_zero,
    Nat.ofDigitChars_replicate_zero, Nat.ofDigitChars_ten_toDigits, pow_one]

theorem hasNumeral_split (point whole : Nat) (hwhole : 0 < whole)
    (hlt : whole < (Nat.toDigits 10 point).length) :
    HasNumeral ((Nat.toDigits 10 point).take whole ++ '.' :: (Nat.toDigits 10 point).drop whole)
      point (whole - (Nat.toDigits 10 point).length) := by
  have hdigits := isWhole_toDigits point
  have hvalue : Nat.ofDigitChars 10 (Nat.toDigits 10 point) 0 = point :=
    Nat.ofDigitChars_ten_toDigits
  generalize Nat.toDigits 10 point = ds at *
  have hw : Json.IsWhole (ds.take whole) := by
    refine ⟨fun c hc => hdigits.isDigit c (List.mem_of_mem_take hc), ?_⟩
    rcases hdigits.head with rfl | ⟨hne, hhead⟩
    · simp at hlt
      omega
    · refine .inr ⟨List.ne_nil_of_length_pos (by rw [List.length_take]; omega), ?_⟩
      rwa [List.head?_take, if_neg hwhole.ne']
  have hf : ∀ c ∈ ds.drop whole, c.isDigit = true := fun c hc =>
    hdigits.isDigit c (List.mem_of_mem_drop hc)
  refine ⟨_, Json.Numeral.ofChars?_positional hw hf (by simp; omega), rfl, rfl, ?_, ?_⟩
  · change Nat.ofDigitChars 10 (ds.take whole ++ ds.drop whole) 0 = point
    rw [List.take_append_drop, hvalue]
  · simp
    omega

/-- The text of a grid point's decimal is read as one numeral, which is not an integer. -/
theorem exists_reads_render (point : Nat) (step : Int) (hzero : point = 0 → step = 0) :
    ∃ significand exponent, Reads point step significand exponent ∧
      HasNumeral ((Binary64.decimalAt point step).render Json.floatLayout)
        significand exponent := by
  have hlength : 0 < (Nat.toDigits 10 point).length := Nat.length_toDigits_pos
  unfold render Binary64.decimalAt Json.floatLayout
  dsimp only
  split
  case isTrue hout =>
    refine ⟨point, step, .digits, ?_⟩
    have h := hasNumeral_scientific point (step + (Nat.toDigits 10 point).length - 1)
    convert h using 1
    omega
  case isFalse hin =>
    split
    case isTrue hsmall =>
      refine ⟨point, step, .digits, ?_⟩
      have h := hasNumeral_small point
        ((step + (Nat.toDigits 10 point).length - 1).natAbs - 1)
      convert h using 1
      omega
    case isFalse hlarge =>
      by_cases hfraction : 0 ≤ step
      · refine ⟨_, _, .padded hfraction (by omega), ?_⟩
        have htake : (Nat.toDigits 10 point).take
            ((step + (Nat.toDigits 10 point).length - 1).toNat + 1) = Nat.toDigits 10 point :=
          List.take_of_length_le (by omega)
        have hdrop : (Nat.toDigits 10 point).drop
            ((step + (Nat.toDigits 10 point).length - 1).toNat + 1) = [] :=
          List.drop_eq_nil_of_le (by omega)
        have hzeros : (step + (Nat.toDigits 10 point).length - 1).toNat + 1 -
            (Nat.toDigits 10 point).length = step.toNat := by omega
        rw [htake, hdrop, hzeros]
        exact hasNumeral_padded point step.toNat fun h => by rw [hzero h]; rfl
      · refine ⟨point, step, .digits, ?_⟩
        have h := hasNumeral_split point ((step + (Nat.toDigits 10 point).length - 1).toNat + 1)
          (by omega) (by omega)
        have hzeros : (step + (Nat.toDigits 10 point).length - 1).toNat + 1 -
            (Nat.toDigits 10 point).length = 0 := by omega
        have hne : ((Nat.toDigits 10 point).drop
            ((step + (Nat.toDigits 10 point).length - 1).toNat + 1)).isEmpty = false := by
          simp
          omega
        rw [hzeros, hne]
        convert h using 1
        · simp
        · omega

/-- The number does not depend on how it is written. -/
theorem Reads.value {significand : Nat} {exponent : Int}
    (h : Reads point step significand exponent) :
    (significand : ℚ) * 10 ^ exponent = point * 10 ^ step := by
  cases h with
  | digits => rfl
  | padded hstep _ =>
    have hpow : (10 : ℚ) ^ step = 10 ^ step.toNat := by
      rw [← zpow_natCast, Int.toNat_of_nonneg hstep]
    rw [hpow]
    push_cast
    norm_num
    ring

/-- All digits fit the significand. -/
theorem Reads.significand_lt {significand : Nat} {exponent : Int}
    (h : Reads point step significand exponent) (hpoint : point < 200000000000000000) :
    significand < UInt64.size := by
  have hsize : UInt64.size = 18446744073709551616 := rfl
  cases h with
  | digits => omega
  | padded hstep hlength =>
    have hlt : point < 10 ^ (Nat.toDigits 10 point).length :=
      (Nat.length_toDigits_le_iff (by decide) Nat.length_toDigits_pos).1 le_rfl
    calc 10 * (10 ^ step.toNat * point)
        < 10 * (10 ^ step.toNat * 10 ^ (Nat.toDigits 10 point).length) := by gcongr
      _ = 10 ^ (1 + (step.toNat + (Nat.toDigits 10 point).length)) := by
        rw [pow_add, pow_add, pow_one]
      _ ≤ 10 ^ 17 := Nat.pow_le_pow_right (by decide) (by omega)
      _ < UInt64.size := by decide

/-- The value of a numeral without sign, and of the numeral with a minus. -/
theorem HasNumeral.toFloat? {text : List Char} {significand : Nat} {exponent : Int}
    (h : HasNumeral text significand exponent) (hlt : significand < UInt64.size) (negative : Bool) :
    ∃ n : Json.Numeral, Json.Numeral.ofChars? (if negative then '-' :: text else text) =
        some (n, []) ∧ n.toInt? = none ∧
      n.toFloat? = (Json.Numeral.scale (.ofNat significand) exponent).map fun x =>
        if negative then x.negate else x := by
  obtain ⟨n, hread, hsign, hpart, hvalue, hexponent⟩ := h
  have hfloat := Json.Numeral.toFloat?_eq hsign (by rwa [hvalue])
  rw [hvalue, hexponent] at hfloat
  cases negative with
  | false =>
    refine ⟨n, hread, ?_, ?_⟩
    · simp [Json.Numeral.toInt?, hpart]
    · simpa using hfloat
  | true =>
    refine ⟨{ n with negative := true }, Json.Numeral.ofChars?_minus hread hsign, ?_, ?_⟩
    · simp [Json.Numeral.toInt?, hpart]
    · have hmap : ({ n with negative := true } : Json.Numeral).toFloat? =
          n.toFloat?.map Binary64.negate := by
        simp [Json.Numeral.toFloat?, hsign]
      rw [hmap, hfloat]
      rfl

end Decimal

end HeadUnit
