import HeadUnit.Proofs.Decimal.Shortest
import HeadUnit.Proofs.Json.Number

/-!
# Scaling a significand

The reader rounds a significand, rounds a power of ten, and rounds their product or quotient; below
`10 ^ (-308)` it divides twice. A number that rounds to a double is read as one that is at most
five units in the last place away from the double. If the significand and the power of ten are
doubles themselves, only the last step rounds, and the number is read as the very double.

## Main statements

* `Json.Numeral.scale_eq_of_exact` — numbers that are read as the double that they round to.
* `Json.Numeral.exists_scale` — how far off a number is read.
-/

namespace HeadUnit.Binary64

/-! ## Relative errors -/

/-- The value is off by the fraction `2 ^ (-53)` at most. -/
def Close (r s : ℚ) : Prop :=
  |r - s| ≤ r / 2 ^ 53

variable {r s a b : ℚ} {x y : Binary64} {n : Nat}

theorem Rounds.close (h : Rounds r x) (hr : r < overflow) (hnormal : 2 ^ (-1022 : Int) ≤ r) :
    Close r x.magnitude := by
  rcases h.abs_sub_le hr with hle | hle
  · exact hle
  · refine hle.trans ?_
    have hpow : (2 : ℚ) ^ (-1075 : Int) = 2 ^ (-1022 : Int) * 2 ^ (-53 : Int) := by
      rw [← zpow_add₀ two_ne_zero]
      rfl
    rw [hpow, zpow_neg _ 53, ← div_eq_mul_inv]
    exact div_le_div_of_nonneg_right hnormal (by positivity)

theorem Close.bounds (h : Close r s) : r * (1 - 1 / 2 ^ 53) ≤ s ∧ s ≤ r * (1 + 1 / 2 ^ 53) := by
  obtain ⟨hleft, hright⟩ := abs_le.1 h
  constructor <;> linarith

theorem Close.pos (h : Close r s) (hr : 0 < r) : 0 < s := by
  have hlow := h.bounds.1
  have hpos : 0 < r * (1 - 1 / 2 ^ 53) := mul_pos hr (by norm_num)
  linarith

theorem lt_overflow_of_le {r : ℚ} (h : r ≤ 10 ^ 308) : r < overflow := by
  have hpow : 10 ^ 308 * 2 < (2 ^ 54 - 1) * 2 ^ 971 := by decide +kernel
  have hcast : ((10 ^ 308 * 2 : Nat) : ℚ) < ((2 ^ 54 - 1) * 2 ^ 971 : Nat) := Nat.cast_lt.2 hpow
  rw [Nat.cast_mul, Nat.cast_mul, Nat.cast_pow, Nat.cast_pow _ 971] at hcast
  have htop : (2 : ℚ) ^ (971 : Int) = 2 ^ 971 := zpow_natCast 2 971
  rw [overflow, htop]
  generalize (2 : ℚ) ^ 971 = top at *
  generalize (10 : ℚ) ^ 308 = ten at *
  push_cast at hcast
  norm_num at hcast ⊢
  linarith

theorem magnitude_lt_overflow (hfinite : x.isFinite = true) : x.magnitude < overflow := by
  have hparts := parts_of_isFinite hfinite
  have htop : (2 : ℚ) ^ x.exponent ≤ 2 ^ (971 : Int) := zpow_le_zpow_right₀ one_le_two hparts.le
  have hm : (x.significand : ℚ) + 1 ≤ 2 ^ 53 := by exact_mod_cast hparts.lt
  have hpos : (0 : ℚ) < 2 ^ (971 : Int) := by positivity
  have hle : x.magnitude ≤ (2 ^ 53 - 1) * 2 ^ (971 : Int) :=
    mul_le_mul (by linarith only [hm]) htop (by positivity) (by norm_num)
  unfold overflow
  generalize (2 : ℚ) ^ (971 : Int) = top at *
  linarith only [hle, hpos]

theorem normal_of_one_le (h : 1 ≤ r) : 2 ^ (-1022 : Int) ≤ r :=
  (zpow_le_one_of_nonpos₀ one_le_two (by decide)).trans h

theorem le_ten_pow_of_le (h : r ≤ 10 ^ 20) : r ≤ 10 ^ 308 :=
  h.trans (pow_le_pow_right₀ (by norm_num) (by decide))

/-- A word is rounded by a small fraction. -/
theorem close_ofNat (hpos : 0 < n) (hlt : n < 0x10000000000000000) :
    Close n (ofNat n).magnitude := by
  have hle : (n : ℚ) ≤ 0x10000000000000000 := by exact_mod_cast hlt.le
  refine (rounds_ofNat n).close (lt_overflow_of_le (le_ten_pow_of_le ?_))
    (normal_of_one_le (by exact_mod_cast hpos))
  exact hle.trans (by norm_num)

/-- A power of ten is rounded by a small fraction. -/
theorem close_powerOfTen (hn : n ≤ 308) : Close (10 ^ n) (powerOfTen n).magnitude := by
  have hrounds : Rounds (10 ^ n) (powerOfTen n) := by
    have h := rounds_ofNat (Nat.pow 10 n)
    rwa [Nat.pow_eq, Nat.cast_pow, Nat.cast_ofNat] at h
  have hle : (10 : ℚ) ^ n ≤ 10 ^ 308 := pow_le_pow_right₀ (by norm_num) hn
  exact hrounds.close (lt_overflow_of_le hle) (normal_of_one_le (one_le_pow₀ (by norm_num)))

/-- Small integers are doubles. -/
theorem magnitude_ofNat (hn : n < 0x20000000000000) : (ofNat n).magnitude = n := by
  refine (rounds_ofNat n).magnitude_eq (n := n) (e := 0) ?_ (by simp) hn (by decide)
  have hle : (n : ℚ) ≤ 0x20000000000000 := by exact_mod_cast hn.le
  exact lt_overflow_of_le (le_ten_pow_of_le (hle.trans (by norm_num)))

/-- Small powers of ten are doubles. -/
theorem magnitude_powerOfTen (hn : n ≤ 22) : (powerOfTen n).magnitude = 10 ^ n := by
  have hrounds : Rounds (10 ^ n) (powerOfTen n) := by
    have h := rounds_ofNat (Nat.pow 10 n)
    rwa [Nat.pow_eq, Nat.cast_pow, Nat.cast_ofNat] at h
  refine hrounds.magnitude_eq (n := 5 ^ n) (e := n) ?_ ?_ ?_ (by omega)
  · exact lt_overflow_of_le (pow_le_pow_right₀ (by norm_num) (by omega))
  · rw [zpow_natCast, Nat.cast_pow, ← mul_pow]
    norm_num
  · calc 5 ^ n ≤ 5 ^ 22 := Nat.pow_le_pow_right (by decide) hn
      _ < 0x20000000000000 := by decide

/-- A product of two close operands is off by a little more than twice their fraction. -/
theorem Close.abs_mul_sub_mul_le {r' s' : ℚ} (h : Close r s) (h' : Close r' s') (hr : 0 < r)
    (hr' : 0 < r') : |r * r' - s * s'| ≤ r * r' * (17 / 8) / 2 ^ 53 := by
  obtain ⟨hlow, hhigh⟩ := h.bounds
  obtain ⟨hlow', hhigh'⟩ := h'.bounds
  have hs := h.pos hr
  have hs' := h'.pos hr'
  have hprod := mul_pos hr hr'
  have hleast : r * (1 - 1 / 2 ^ 53) * (r' * (1 - 1 / 2 ^ 53)) ≤ s * s' := by
    gcongr
  have hgreatest : s * s' ≤ r * (1 + 1 / 2 ^ 53) * (r' * (1 + 1 / 2 ^ 53)) := by
    gcongr
  rw [abs_le]
  norm_num at hleast hgreatest ⊢
  constructor <;> nlinarith only [hleast, hgreatest, hprod]

/-- A quotient of two close operands is off by a little more than twice their fraction. -/
theorem Close.abs_div_sub_div_le {r' s' : ℚ} (h : Close r s) (h' : Close r' s') (hr : 0 < r)
    (hr' : 0 < r') : |r / r' - s / s'| ≤ r / r' * (17 / 8) / 2 ^ 53 := by
  obtain ⟨hlow, hhigh⟩ := h.bounds
  obtain ⟨hlow', hhigh'⟩ := h'.bounds
  have hs' := h'.pos hr'
  have hquotient : 0 < r / r' := div_pos hr hr'
  have hr_eq : r = r / r' * r' := (div_mul_cancel₀ r hr'.ne').symm
  rw [abs_le]
  constructor
  · have hle : s / s' ≤ r / r' * (1 + 17 / 8 / 2 ^ 53) := by
      rw [div_le_iff₀ hs']
      have hmul := mul_le_mul_of_nonneg_left hlow' hquotient.le
      norm_num at hhigh hmul ⊢
      nlinarith only [hhigh, hmul, hr_eq, hr]
    norm_num at hle ⊢
    linarith
  · have hle : r / r' * (1 - 17 / 8 / 2 ^ 53) ≤ s / s' := by
      rw [le_div_iff₀ hs']
      have hmul := mul_le_mul_of_nonneg_left hhigh' hquotient.le
      norm_num at hlow hmul ⊢
      nlinarith only [hlow, hmul, hr_eq, hr]
    norm_num at hle ⊢
    linarith

/-- A rounding is off by little more than half a unit of a greater binade. -/
theorem Rounds.abs_sub_le_unit {u : ℚ} (h : Rounds r y) (hr : r < overflow)
    (hle : r / 2 ^ 53 ≤ 17 / 16 * u) (hu : 2 ^ (-1074 : Int) ≤ u) :
    |r - y.magnitude| ≤ 17 / 16 * u := by
  rcases h.abs_sub_le hr with hoff | hoff
  · exact hoff.trans hle
  · refine hoff.trans ?_
    have hhalf : (2 : ℚ) ^ (-1075 : Int) = 2 ^ (-1074 : Int) / 2 := by
      rw [div_eq_mul_inv, ← zpow_sub_one₀ two_ne_zero]
      rfl
    have hpos : (0 : ℚ) < 2 ^ (-1074 : Int) := by positivity
    linarith

theorem significand_pos_of_magnitude_pos (h : 0 < x.magnitude) : 0 < x.significand := by
  unfold magnitude at h
  have := pos_of_mul_pos_left h (by positivity)
  exact_mod_cast this

theorem isZero_eq_false (h : 0 < x.magnitude) : x.isZero = false := by
  have hpos := significand_pos_of_magnitude_pos h
  unfold significand at hpos
  unfold isZero
  split at hpos
  case isTrue hfield => simp; omega
  case isFalse hfield => simp [hfield]

end HeadUnit.Binary64

namespace HeadUnit.Json.Numeral

open Binary64

variable {x : Binary64} {significand : Nat} {k : Int}

/-! ## The steps of the reader -/

theorem scale_of_nonneg {a : Binary64} (hk : 0 ≤ k) (hle : k ≤ 308)
    (hfinite : (a.product (.powerOfTen k.toNat)).isFinite = true) :
    scale a k = some (a.product (.powerOfTen k.toNat)) := by
  rw [scale, if_pos hk, if_pos hle]
  exact if_pos hfinite

theorem scale_of_neg {a : Binary64} (hk : k < 0) (hle : -308 ≤ k) :
    scale a k = some (a.quotient (.powerOfTen (-k).toNat)) := by
  rw [scale, if_neg (by omega), if_pos hle]

theorem scale_of_lt {a : Binary64} (hk : k < -308) (ha : a.isZero = false) :
    scale a k = scale (a.quotient (.powerOfTen 308)) (k + 308) := by
  rw [scale, if_neg (by omega), if_neg (by omega), ha]
  rfl

theorem zpow_eq_pow_toNat (hk : 0 ≤ k) : (10 : ℚ) ^ k = 10 ^ k.toNat := by
  rw [← zpow_natCast, Int.toNat_of_nonneg hk]

theorem zpow_eq_inv_pow_toNat (hk : k ≤ 0) : (10 : ℚ) ^ k = (10 ^ (-k).toNat)⁻¹ := by
  rw [← zpow_natCast, Int.toNat_of_nonneg (by omega), ← zpow_neg, neg_neg]

/-! ## Exact operands -/

/-- A number that rounds to a double is read as the double if significand and power of ten are
doubles. -/
theorem scale_eq_of_exact (hfinite : x.isFinite = true) (hsign : x.isNegative = false)
    (hpos : 0 < (significand : ℚ) * 10 ^ k) (hnear : x.Near (significand * 10 ^ k))
    (hsignificand : significand < 0x20000000000000) (hlow : -22 ≤ k) (hhigh : k ≤ 22) :
    scale (.ofNat significand) k = some x := by
  rcases le_or_gt 0 k with hk | hk
  · have hrounds := rounds_product (.ofNat significand) (.powerOfTen k.toNat)
    rw [magnitude_ofNat hsignificand, magnitude_powerOfTen (by omega), ← zpow_eq_pow_toNat hk]
      at hrounds
    have heq := hrounds.eq_of_near hpos hfinite hsign hnear
    rw [scale_of_nonneg hk (by omega) (by rw [heq]; exact hfinite), heq]
  · have hpower : (powerOfTen (-k).toNat).magnitude = 10 ^ (-k).toNat :=
      magnitude_powerOfTen (by omega)
    have hden := significand_pos_of_magnitude_pos (x := powerOfTen (-k).toNat)
      (by rw [hpower]; positivity)
    have hrounds := rounds_quotient (.ofNat significand) hden
    rw [magnitude_ofNat hsignificand, hpower, div_eq_mul_inv, ← zpow_eq_inv_pow_toNat hk.le]
      at hrounds
    rw [scale_of_neg hk (by omega), hrounds.eq_of_near hpos hfinite hsign hnear]

/-! ## Rounded operands -/

/-- What is read, if it is at most five units in the last place away from `x`. -/
def ScalesNear (x : Binary64) (read : Option Binary64) : Prop :=
  ∃ y, read = some y ∧ y.isFinite = true ∧ y.isNegative = false ∧
    |y.magnitude - x.magnitude| ≤ 5 * x.unit

theorem unit_ge (hfinite : x.isFinite = true) : 2 ^ (-1074 : Int) ≤ x.unit :=
  zpow_le_zpow_right₀ one_le_two (parts_of_isFinite hfinite).least

/-- A number near to a double has fifty-three bits at most before the last place. -/
theorem div_le_unit_of_near (hfinite : x.isFinite = true) {r : ℚ} (hnear : x.Near r) :
    r / 2 ^ 53 ≤ x.unit := by
  have hsignificand : (x.significand : ℚ) + 1 ≤ 2 ^ 53 := by
    exact_mod_cast (parts_of_isFinite hfinite).lt
  have hmagnitude := mul_le_mul_of_nonneg_right hsignificand x.unit_pos.le
  have hupper := hnear.upper
  have hunit := x.unit_pos
  rw [magnitude_eq_mul_unit] at hupper
  rw [div_le_iff₀ (by positivity)]
  linarith

/-- Two rounded operands and a third rounding. -/
theorem abs_sub_magnitude_le {r q u : ℚ} {y : Binary64} (h : Rounds q y) (hq : q < overflow)
    (hoff : |r - q| ≤ r * (17 / 8) / 2 ^ 53) (hr : r / 2 ^ 53 ≤ u) (hu : 2 ^ (-1074 : Int) ≤ u) :
    |r - y.magnitude| ≤ 51 / 16 * u := by
  have hupos : 0 < u := lt_of_lt_of_le (by positivity) hu
  obtain ⟨_, _⟩ := abs_le.1 hoff
  have hy := h.abs_sub_le_unit hq (u := u) (by linarith) hu
  obtain ⟨_, _⟩ := abs_le.1 hy
  rw [abs_le]
  constructor <;> linarith

theorem scalesNear_some {r : ℚ} {y : Binary64} (hnear : x.Near r) (hy : y.isFinite = true)
    (hsign : y.isNegative = false) (hoff : |r - y.magnitude| ≤ 17 / 4 * x.unit) :
    ScalesNear x (some y) := by
  have hupos := x.unit_pos
  obtain ⟨_, _⟩ := abs_le.1 hnear.abs_sub_le
  obtain ⟨_, _⟩ := abs_le.1 hoff
  refine ⟨y, rfl, hy, hsign, ?_⟩
  rw [abs_le]
  constructor <;> linarith

/-- What is close to a word, or to a fraction of one, is far below the greatest double. -/
theorem lt_overflow_of_off {r q : ℚ} (hr : r ≤ 0x10000000000000000)
    (hoff : |r - q| ≤ r * (17 / 8) / 2 ^ 53) : q < overflow := by
  obtain ⟨_, _⟩ := abs_le.1 hoff
  exact lt_overflow_of_le (le_ten_pow_of_le (by linarith))

theorem div_ten_pow_le (hlt : significand < 0x10000000000000000) (n : Nat) :
    (significand : ℚ) / 10 ^ n ≤ 0x10000000000000000 := by
  have hle : (significand : ℚ) ≤ 0x10000000000000000 := by exact_mod_cast hlt.le
  exact (div_le_self (Nat.cast_nonneg _) (one_le_pow₀ (by norm_num))).trans hle

/-- A quotient of rounded operands. -/
theorem scalesNear_of_neg (hfinite : x.isFinite = true) (hsignificand : 0 < significand)
    (hlt : significand < 0x10000000000000000) (hnear : x.Near (significand * 10 ^ k)) (hk : k < 0)
    (hlow : -308 ≤ k) : ScalesNear x (scale (.ofNat significand) k) := by
  have hD : (0 : ℚ) < significand := by exact_mod_cast hsignificand
  have hten : (0 : ℚ) < 10 ^ (-k).toNat := by positivity
  have hpower : Close (10 ^ (-k).toNat) (powerOfTen (-k).toNat).magnitude :=
    close_powerOfTen (by omega)
  have hoff := (close_ofNat hsignificand hlt).abs_div_sub_div_le hpower hD hten
  have hrounds := rounds_quotient (.ofNat significand)
    (significand_pos_of_magnitude_pos (hpower.pos hten))
  have hq := lt_overflow_of_off (div_ten_pow_le hlt _) hoff
  obtain ⟨hyfinite, hysign, -⟩ := hrounds.exists_lastPlace hq
  rw [zpow_eq_inv_pow_toNat hk.le, ← div_eq_mul_inv] at hnear
  have hy := abs_sub_magnitude_le hrounds hq hoff (div_le_unit_of_near hfinite hnear)
    (unit_ge hfinite)
  have hupos := x.unit_pos
  rw [scale_of_neg hk hlow]
  exact scalesNear_some hnear hyfinite hysign (by linarith)

/-- A product of rounded operands. Only next to the greatest double it could overflow. -/
theorem scalesNear_of_nonneg (hfinite : x.isFinite = true) (hsignificand : 0 < significand)
    (hlt : significand < 0x10000000000000000) (hnear : x.Near (significand * 10 ^ k)) (hk : 0 ≤ k)
    (hle : k ≤ 308) (hroom : x.magnitude ≤ (2 ^ 53 - 4) * 2 ^ (971 : Int)) :
    ScalesNear x (scale (.ofNat significand) k) := by
  have hD : (0 : ℚ) < significand := by exact_mod_cast hsignificand
  have hten : (0 : ℚ) < 10 ^ k.toNat := by positivity
  have hpower : Close (10 ^ k.toNat) (powerOfTen k.toNat).magnitude := close_powerOfTen (by omega)
  have hoff := (close_ofNat hsignificand hlt).abs_mul_sub_mul_le hpower hD hten
  have hrounds := rounds_product (.ofNat significand) (.powerOfTen k.toNat)
  rw [zpow_eq_pow_toNat hk] at hnear
  have hunit := div_le_unit_of_near hfinite hnear
  have hupos := x.unit_pos
  have hq : (ofNat significand).magnitude * (powerOfTen k.toNat).magnitude < overflow := by
    have hutop : x.unit ≤ 2 ^ (971 : Int) :=
      zpow_le_zpow_right₀ one_le_two (parts_of_isFinite hfinite).le
    have htop : (0 : ℚ) < 2 ^ (971 : Int) := by positivity
    obtain ⟨_, _⟩ := abs_le.1 hoff
    obtain ⟨_, _⟩ := abs_le.1 hnear.abs_sub_le
    unfold overflow
    generalize (2 : ℚ) ^ (971 : Int) = top at *
    generalize (10 : ℚ) ^ k.toNat = power at *
    linarith
  obtain ⟨hyfinite, hysign, -⟩ := hrounds.exists_lastPlace hq
  have hy := abs_sub_magnitude_le hrounds hq hoff hunit (unit_ge hfinite)
  rw [scale_of_nonneg hk hle hyfinite]
  exact scalesNear_some hnear hyfinite hysign (by linarith)

/-- Two quotients, the second by a power of ten that is a double. -/
theorem scalesNear_of_lt (hfinite : x.isFinite = true) (hsignificand : 0 < significand)
    (hlt : significand < 0x10000000000000000) (hnear : x.Near (significand * 10 ^ k))
    (hk : k < -308) (hlow : -324 ≤ k) : ScalesNear x (scale (.ofNat significand) k) := by
  have hD : (0 : ℚ) < significand := by exact_mod_cast hsignificand
  have hten : (0 : ℚ) < 10 ^ 308 := by positivity
  have hclose := close_ofNat hsignificand hlt
  have hpower : Close (10 ^ 308) (powerOfTen 308).magnitude := close_powerOfTen le_rfl
  have hoff := hclose.abs_div_sub_div_le hpower hD hten
  have hrounds := rounds_quotient (.ofNat significand)
    (significand_pos_of_magnitude_pos (hpower.pos hten))
  have hq := lt_overflow_of_off (div_ten_pow_le hlt _) hoff
  have hsmall : (powerOfTen (-(k + 308)).toNat).magnitude = 10 ^ (-(k + 308)).toNat :=
    magnitude_powerOfTen (by omega)
  have hrounds' := rounds_quotient ((ofNat significand).quotient (powerOfTen 308))
    (significand_pos_of_magnitude_pos (x := powerOfTen (-(k + 308)).toNat)
      (by rw [hsmall]; positivity))
  have hvalue : (significand : ℚ) * 10 ^ k =
      significand / 10 ^ 308 / 10 ^ (-(k + 308)).toNat := by
    have hsum : k = -308 + (k + 308) := by omega
    rw [hsum, zpow_add₀ (by norm_num), ← hsum, zpow_eq_inv_pow_toNat (by omega : k + 308 ≤ 0),
      div_eq_mul_inv, div_eq_mul_inv, ← mul_assoc]
    rfl
  rw [scale_of_lt hk (isZero_eq_false (hclose.pos hD)), scale_of_neg (by omega) (by omega)]
  rw [hsmall] at hrounds'
  rw [hvalue] at hnear
  have hword := div_ten_pow_le hlt 308
  have hT : (1 : ℚ) ≤ 10 ^ (-(k + 308)).toNat := one_le_pow₀ (by norm_num)
  generalize (ofNat significand).quotient (powerOfTen 308) = y at *
  generalize y.quotient (powerOfTen (-(k + 308)).toNat) = z at *
  generalize (10 : ℚ) ^ (-(k + 308)).toNat = t at *
  generalize (significand : ℚ) / 10 ^ 308 = r at *
  have htpos : 0 < t := one_pos.trans_le hT
  have hupos := x.unit_pos
  have hunit := div_le_unit_of_near hfinite hnear
  -- Next to the first quotient a unit is worth `t` times as much.
  have hfirst : |r - y.magnitude| ≤ 51 / 16 * (x.unit * t) := by
    rw [div_right_comm, div_le_iff₀ htpos] at hunit
    exact abs_sub_magnitude_le hrounds hq hoff hunit
      ((unit_ge hfinite).trans (le_mul_of_one_le_right hupos.le hT))
  have hdivided : |r / t - y.magnitude / t| ≤ 51 / 16 * x.unit := by
    rwa [← sub_div, abs_div, abs_of_pos htpos, div_le_iff₀ htpos, mul_assoc]
  have hz : y.magnitude / t < overflow := by
    obtain ⟨hyfinite, -, -⟩ := hrounds.exists_lastPlace hq
    exact (div_le_self y.magnitude_nonneg hT).trans_lt (magnitude_lt_overflow hyfinite)
  obtain ⟨_, _⟩ := abs_le.1 hdivided
  obtain ⟨hzfinite, hzsign, -⟩ := hrounds'.exists_lastPlace hz
  have hlast := hrounds'.abs_sub_le_unit hz (u := x.unit) (by linarith) (unit_ge hfinite)
  refine scalesNear_some hnear hzfinite hzsign ?_
  calc |r / t - z.magnitude| ≤ |r / t - y.magnitude / t| + |y.magnitude / t - z.magnitude| :=
        abs_sub_le ..
    _ ≤ 17 / 4 * x.unit := by linarith

/-- A number that is near to a double is read as one that is at most five units in the last place
away, unless the double is one of the three greatest. -/
theorem exists_scale (hfinite : x.isFinite = true) (hsignificand : 0 < significand)
    (hlt : significand < 0x10000000000000000) (hnear : x.Near (significand * 10 ^ k))
    (hlow : -324 ≤ k) (hroom : x.magnitude ≤ (2 ^ 53 - 4) * 2 ^ (971 : Int)) :
    ScalesNear x (scale (.ofNat significand) k) := by
  rcases le_or_gt 0 k with hk | hk
  · have hle : k ≤ 308 := by
      by_contra hgt
      have hone : (1 : ℚ) ≤ significand := by exact_mod_cast hsignificand
      have hten : (10 : ℚ) ^ (309 : Int) ≤ 10 ^ k := zpow_le_zpow_right₀ (by norm_num) (by omega)
      have hgreat : (2 : ℚ) ^ (1024 : Int) ≤ 10 ^ (309 : Int) := by
        apply two_zpow_le_ten_zpow <;> decide
      have hutop : x.unit ≤ 2 ^ (971 : Int) :=
        zpow_le_zpow_right₀ one_le_two (parts_of_isFinite hfinite).le
      have hsplit : (2 : ℚ) ^ (1024 : Int) = 2 ^ 53 * 2 ^ (971 : Int) := by
        rw [← zpow_natCast, ← zpow_add₀ two_ne_zero]
        rfl
      have htop : (0 : ℚ) < 2 ^ (971 : Int) := by positivity
      have hmul := mul_le_mul_of_nonneg_right hone (by positivity : (0 : ℚ) ≤ 10 ^ k)
      have hupper := hnear.upper
      rw [hsplit] at hgreat
      generalize (2 : ℚ) ^ (971 : Int) = top at *
      generalize (10 : ℚ) ^ (309 : Int) = great at *
      generalize (10 : ℚ) ^ k = power at *
      linarith only [hgreat, hten, hmul, hupper, hroom, hutop, htop]
    exact scalesNear_of_nonneg hfinite hsignificand hlt hnear hk hle hroom
  · rcases le_or_gt (-308) k with hk' | hk'
    · exact scalesNear_of_neg hfinite hsignificand hlt hnear hk hk'
    · exact scalesNear_of_lt hfinite hsignificand hlt hnear hk' hlow

end HeadUnit.Json.Numeral
