import HeadUnit.Proofs.Json.Float
import HeadUnit.Proofs.Json.Scale

/-!
# Doubles through text

The text of a finite double is always read as a finite double with the same sign, at most five
units in the last place away. It is the very double if its decimal is brief. Only next to the
greatest double the error bounds leave room for an overflow, so the three greatest doubles are
computed.

## Main definitions

* `Decimal.IsBrief` — decimals that are read exactly.
* `Binary64.reread` — the double that the text of a double is read as.
* `Binary64.Resembles` — a double next to another one.

## Main statements

* `Binary64.exists_scalesNear` — what the text of a double without sign is read as.
* `Binary64.resembles_reread` — how far off a double is read.
* `Binary64.reread_eq_self_iff` — which doubles are read as themselves.
-/

namespace HeadUnit

/-- At most fifteen digits, and a magnitude from `10 ^ (-8)` to below `10 ^ 14`. -/
def Decimal.IsBrief (d : Decimal) : Prop :=
  d.digits.length ≤ 15 ∧ -8 ≤ d.exponent ∧ d.exponent < 14

instance (d : Decimal) : Decidable d.IsBrief :=
  inferInstanceAs (Decidable (_ ∧ _ ∧ _))

namespace Binary64

open Json.Numeral

variable {x : Binary64}

/-! ## Magnitudes -/

/-- The same magnitude without a sign. -/
def abs (x : Binary64) : Binary64 :=
  if x.isNegative then x.negate else x

@[simp] theorem isNegative_abs (x : Binary64) : x.abs.isNegative = false := by
  unfold abs
  split <;> simp_all

@[simp] theorem isFinite_abs (x : Binary64) : x.abs.isFinite = x.isFinite := by
  unfold abs
  split <;> simp

theorem shortest_abs (x : Binary64) : x.abs.shortest = x.shortest := by
  unfold abs
  split
  case isTrue =>
    simp only [shortest, ceilingExponent, neighbourhood, significand_negate, exponent_negate]
  case isFalse => rfl

theorem magnitude_abs (x : Binary64) : x.abs.magnitude = x.magnitude := by
  unfold abs
  split <;> simp

theorem unit_abs (x : Binary64) : x.abs.unit = x.unit := by
  unfold abs
  split <;> simp [unit]

theorem eq_of_abs (x : Binary64) : (if x.isNegative then x.abs.negate else x.abs) = x := by
  unfold abs
  split <;> simp

/-! ## Zero -/

theorem bits_lt_of_isNegative (hsign : x.isNegative = false) :
    x.bits.toNat < 0x8000000000000000 := by
  simpa [isNegative] using hsign

theorem eq_zero_of_significand (hsign : x.isNegative = false) (h : x.significand = 0) :
    x = zero := by
  have hbits := bits_lt_of_isNegative hsign
  have hzero : x.bits.toNat = 0 := by
    unfold significand exponentField fractionField at h
    split at h <;> omega
  obtain ⟨bits⟩ := x
  rw [zero]
  congr 1
  exact UInt64.toNat_inj.1 hzero

theorem shortest_zero : zero.shortest = decimalAt 0 0 := rfl

/-- Zero is read as zero. -/
theorem scale_zero : scale (.ofNat 0) (-1) = some zero := by decide +kernel

/-! ## The greatest doubles -/

/-- The `j`-th of the greatest doubles, down from the greatest one. -/
def greatest (j : Nat) : Binary64 :=
  ⟨(0x7fefffffffffffff - j).toUInt64⟩

theorem shortest_greatest : ∀ j < 3,
    (greatest j).shortest = decimalAt (17976931348623157 - 2 * j) 292 := by
  decide +kernel

/-- Next to the greatest double the product is the double or the next greater one, so nothing
overflows. -/
theorem product_greatest : ∀ j < 3, ∃ i ≤ j, j ≤ i + 1 ∧
    (ofNat (17976931348623157 - 2 * j)).product (powerOfTen 292) = greatest i := by
  decide +kernel

theorem parts_greatest : ∀ j < 3, (greatest j).significand = 0x1fffffffffffff - j ∧
    (greatest j).exponent = 971 ∧ (greatest j).isFinite = true ∧
    (greatest j).isNegative = false := by
  decide +kernel

theorem eq_greatest (hfinite : x.isFinite = true) (hsign : x.isNegative = false)
    (hexponent : x.exponent = 971) (hnormal : 0x10000000000000 ≤ x.significand) :
    x = greatest (0x1fffffffffffff - x.significand) := by
  have hlt := (parts_of_isFinite hfinite).lt
  have hbits := pack_significand_exponent hfinite hsign
  have hpack : pack x.significand 971 = 2045 * 0x10000000000000 + x.significand := by
    unfold pack
    rw [if_neg (by omega), min_eq_left (by omega)]
    rfl
  rw [hexponent, hpack] at hbits
  have hbits' : x.bits.toNat = 0x7fefffffffffffff - (0x1fffffffffffff - x.significand) := by omega
  have hself : x = ⟨x.bits.toNat.toUInt64⟩ := by
    obtain ⟨bits⟩ := x
    simp
  rw [hbits'] at hself
  exact hself

theorem exists_eq_greatest (hfinite : x.isFinite = true) (hsign : x.isNegative = false)
    (hgreat : (2 ^ 53 - 4) * 2 ^ (971 : Int) < x.magnitude) : ∃ j < 3, x = greatest j := by
  have hparts := parts_of_isFinite hfinite
  have htop : (0 : ℚ) < 2 ^ (971 : Int) := by positivity
  have hm : (x.significand : ℚ) + 1 ≤ 2 ^ 53 := by exact_mod_cast hparts.lt
  unfold magnitude at hgreat
  have hexponent : x.exponent = 971 := by
    by_contra hne
    have hle := hparts.le
    have hhalf : (2 : ℚ) ^ x.exponent ≤ 2 ^ (971 : Int) / 2 := by
      rw [div_eq_mul_inv, ← zpow_sub_one₀ two_ne_zero]
      exact zpow_le_zpow_right₀ one_le_two (by omega)
    have hmul : (x.significand : ℚ) * 2 ^ x.exponent ≤ 2 ^ 53 * (2 ^ (971 : Int) / 2) := by
      gcongr
      linarith
    generalize (2 : ℚ) ^ (971 : Int) = top at *
    linarith only [hgreat, hmul, htop]
  have hsignificand : 0x20000000000000 - 4 < x.significand := by
    rw [hexponent] at hgreat
    have hlt := lt_of_mul_lt_mul_right hgreat htop.le
    rw [← Nat.cast_lt (α := ℚ)]
    norm_num at hlt ⊢
    exact hlt
  exact ⟨_, by have := hparts.lt; omega, eq_greatest hfinite hsign hexponent (by omega)⟩

/-! ## From the decimal to the double -/

theorem decimalAt_inj {point point' : Nat} {step step' : Int}
    (h : decimalAt point step = decimalAt point' step') : point = point' ∧ step = step' := by
  obtain ⟨hdigits, hexponent⟩ := Decimal.mk.inj h
  have hpoint : point = point' := by
    rw [← Nat.ofDigitChars_ten_toDigits (n := point), hdigits, Nat.ofDigitChars_ten_toDigits]
  refine ⟨hpoint, ?_⟩
  rw [hdigits] at hexponent
  omega

theorem scalesNear_greatest {j : Nat} (hj : j < 3) {point significand : Nat} {step k : Int}
    (hshortest : (greatest j).shortest = decimalAt point step)
    (hreads : Decimal.Reads point step significand k) :
    ScalesNear (greatest j) (scale (.ofNat significand) k) := by
  obtain ⟨rfl, rfl⟩ := decimalAt_inj ((shortest_greatest j hj).symm.trans hshortest)
  obtain ⟨i, hle, hge, hproduct⟩ := product_greatest j hj
  obtain ⟨hsignificand, hexponent, -⟩ := parts_greatest j hj
  obtain ⟨hsignificand', hexponent', hfinite, hsign⟩ := parts_greatest i (by omega)
  cases hreads with
  | padded _ hlength => omega
  | digits =>
    refine ⟨greatest i, ?_, hfinite, hsign, ?_⟩
    · rw [← hproduct] at hfinite ⊢
      exact scale_of_nonneg (by decide) (by decide) hfinite
    · have hunit : (greatest i).unit = (greatest j).unit := by
        rw [unit, unit, hexponent, hexponent']
      have hone : |((greatest i).significand : ℚ) - (greatest j).significand| ≤ 1 := by
        have hstep : (greatest i).significand = (greatest j).significand + (j - i) := by omega
        rw [hstep, Nat.cast_add, add_sub_cancel_left, Nat.abs_cast]
        exact_mod_cast (by omega : j - i ≤ 1)
      have hpos := (greatest j).unit_pos
      rw [magnitude_eq_mul_unit, magnitude_eq_mul_unit, hunit, ← sub_mul, abs_mul, abs_of_pos hpos]
      exact mul_le_mul_of_nonneg_right (hone.trans (by norm_num)) hpos.le

/-- A brief decimal is read with a significand and a power of ten that are doubles. -/
theorem bounds_of_reads {point significand : Nat} {step k : Int}
    (h : Decimal.Reads point step significand k) (hbrief : (decimalAt point step).IsBrief) :
    significand < 0x20000000000000 ∧ -22 ≤ k ∧ k ≤ 22 := by
  obtain ⟨hlength, hleast, hgreatest⟩ := hbrief
  have hpos : 0 < (Nat.toDigits 10 point).length := Nat.length_toDigits_pos
  have hlt : point < 10 ^ (Nat.toDigits 10 point).length :=
    (Nat.length_toDigits_le_iff (by decide) hpos).1 le_rfl
  unfold decimalAt at hlength hleast hgreatest
  dsimp only at hlength hleast hgreatest
  cases h with
  | digits =>
    have hword : point < 10 ^ 15 := hlt.trans_le (Nat.pow_le_pow_right (by decide) hlength)
    exact ⟨by omega, by omega, by omega⟩
  | padded hstep _ =>
    refine ⟨?_, by decide, by decide⟩
    calc 10 * (10 ^ step.toNat * point)
        < 10 * (10 ^ step.toNat * 10 ^ (Nat.toDigits 10 point).length) := by gcongr
      _ = 10 ^ (1 + (step.toNat + (Nat.toDigits 10 point).length)) := by
        rw [pow_add, pow_add, pow_one]
      _ ≤ 10 ^ 15 := Nat.pow_le_pow_right (by decide) (by omega)
      _ < 0x20000000000000 := by decide

/-- The text of a double without sign is read with a significand and a power of ten that scale to
a double near to it, and to the double itself if its decimal is brief. -/
theorem exists_scalesNear (hfinite : x.isFinite = true) (hsign : x.isNegative = false) :
    ∃ (significand : Nat) (k : Int), significand < UInt64.size ∧
      Decimal.HasNumeral (x.shortest.render Json.floatLayout) significand k ∧
      ScalesNear x (scale (.ofNat significand) k) ∧
      (x.shortest.IsBrief → scale (.ofNat significand) k = some x) := by
  rcases Nat.eq_zero_or_pos x.significand with hzero | hpos
  · obtain rfl := eq_zero_of_significand hsign hzero
    obtain ⟨significand, k, hreads, hnumeral⟩ := Decimal.exists_reads_render 0 0 fun _ => rfl
    have hscale : scale (.ofNat significand) k = some zero := by
      cases hreads with
      | digits => decide +kernel
      | padded => exact scale_zero
    have hself : ScalesNear zero (some zero) := ⟨zero, rfl, rfl, rfl, by
      have := zero.unit_pos
      rw [sub_self, abs_zero]
      linarith⟩
    rw [← shortest_zero] at hnumeral
    exact ⟨significand, k, hreads.significand_lt (by decide), hnumeral, hscale ▸ hself,
      fun _ => hscale⟩
  · obtain ⟨point, step, hshortest, hnear, hpoint, hlt, hstep⟩ := exists_shortest hfinite hpos
    obtain ⟨significand, k, hreads, hnumeral⟩ :=
      Decimal.exists_reads_render point step fun h => absurd h hpoint.ne'
    have hword := hreads.significand_lt hlt
    rw [← hreads.value] at hnear
    have hvalue : (0 : ℚ) < significand * 10 ^ k := hnear.pos hpos
    have hsignificand : 0 < significand := by
      have := pos_of_mul_pos_left hvalue (by positivity)
      exact_mod_cast this
    have hk : -324 ≤ k := by
      cases hreads with
      | digits => exact hstep
      | padded => decide
    refine ⟨significand, k, hword, hshortest ▸ hnumeral, ?_, fun hbrief => ?_⟩
    · rcases le_or_gt x.magnitude ((2 ^ 53 - 4) * 2 ^ (971 : Int)) with hroom | hgreat
      · exact exists_scale hfinite hsignificand hword hnear hk hroom
      · obtain ⟨j, hj, rfl⟩ := exists_eq_greatest hfinite hsign hgreat
        exact scalesNear_greatest hj hshortest hreads
    · rw [hshortest] at hbrief
      obtain ⟨hfits, hlow, hhigh⟩ := bounds_of_reads hreads hbrief
      exact scale_eq_of_exact hfinite hsign hvalue hnear hfits hlow hhigh

/-! ## The double of a text -/

/-- The double that the text of a double is read as. -/
def reread (x : Binary64) : Binary64 :=
  ((Json.Numeral.ofChars? (x.render Json.floatLayout)).bind fun read => read.1.toFloat?).getD x

/-- The second double is finite, has the sign of the first one and is at most five units in the
last place away from it. It is the first one if that has a brief decimal. -/
structure Resembles (x y : Binary64) : Prop where
  isFinite : y.isFinite = true
  isNegative : y.isNegative = x.isNegative
  abs_sub_le : |y.magnitude - x.magnitude| ≤ 5 * x.unit
  eq_of_isBrief : x.shortest.IsBrief → y = x

/-- The text of a finite double is read as a number that is not an integer. -/
theorem exists_reread (hfinite : x.isFinite = true) :
    ∃ n : Json.Numeral, Json.Numeral.ofChars? (x.render Json.floatLayout) = some (n, []) ∧
      n.toInt? = none ∧ n.toFloat? = some x.reread ∧ x.Resembles x.reread := by
  obtain ⟨significand, k, hword, hnumeral, ⟨z, hz, hzfinite, hzsign, hoff⟩, hexact⟩ :=
    exists_scalesNear (x := x.abs) ((isFinite_abs x).trans hfinite) (isNegative_abs x)
  rw [shortest_abs] at hnumeral hexact
  rw [magnitude_abs, unit_abs] at hoff
  obtain ⟨n, hread, hint, hfloat⟩ := hnumeral.toFloat? hword x.isNegative
  rw [hz, Option.map_some] at hfloat
  change Json.Numeral.ofChars? (x.render Json.floatLayout) = some (n, []) at hread
  have hreread : x.reread = if x.isNegative then z.negate else z := by
    rw [reread, hread, Option.bind_some, hfloat, Option.getD_some]
  refine ⟨n, hread, hint, hreread ▸ hfloat, ?_, ?_, ?_, fun hbrief => ?_⟩
  · rw [hreread]
    split <;> simp [hzfinite]
  · rw [hreread]
    split <;> simp_all
  · rw [hreread]
    split <;> simpa using hoff
  · have hself : z = x.abs := Option.some.inj (hz.symm.trans (hexact hbrief))
    rw [hreread, hself]
    exact x.eq_of_abs

theorem resembles_reread (hfinite : x.isFinite = true) : x.Resembles x.reread := by
  obtain ⟨n, -, -, -, hresembles⟩ := exists_reread hfinite
  exact hresembles

theorem exists_numeral_reread (hfinite : x.isFinite = true) :
    ∃ n : Json.Numeral, Json.Numeral.ofChars? (x.render Json.floatLayout) = some (n, []) ∧
      n.toJson? = some (.float x.reread (resembles_reread hfinite).isFinite) := by
  obtain ⟨n, hread, hint, hfloat, hresembles⟩ := exists_reread hfinite
  refine ⟨n, hread, ?_⟩
  rw [Json.Numeral.toJson?, hint, hfloat]
  exact congrArg some (dif_pos hresembles.isFinite)

/-- The digits that are read back. -/
theorem reread_eq_self_iff (hfinite : x.isFinite = true) : x.reread = x ↔ x.ReadsBack := by
  have hx : Json.ofFloat x = .float x hfinite := dif_pos hfinite
  obtain ⟨n, hread, hvalue⟩ := exists_numeral_reread hfinite
  constructor
  · intro hself
    refine ⟨n, hread, hvalue.trans (congrArg some (hx.trans ?_).symm)⟩
    simp only [hself]
  · rintro ⟨n', hread', hvalue'⟩
    obtain ⟨rfl, -⟩ := Prod.mk.inj (Option.some.inj (hread.symm.trans hread'))
    rw [hvalue, hx] at hvalue'
    exact (Json.float.inj (Option.some.inj hvalue'))

end Binary64

end HeadUnit
