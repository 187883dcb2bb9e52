import HeadUnit.Proofs.Binary64.Magnitude
import Mathlib.Tactic.FieldSimp
import Mathlib.Tactic.GCongr
import Mathlib.Tactic.NormNum

/-!
# Rounding to doubles

A ratio is rounded in the binade around it: its last place leaves fifty-three bits, or fewer if it
is the least one. No double is nearer to the ratio than what it rounds to, so the error is at most
half of the last place, and a ratio that is a double rounds to itself.

## Main definitions

* `Binary64.LastPlace` — what the last place of the doubles around a number is worth.
* `Binary64.Rounds` — a double that a number rounds to.

## Main statements

* `Binary64.lastPlace_unitExponent` — the place at which a ratio is rounded.
* `Binary64.Rounds.abs_sub_le_abs_sub` — no double is nearer.
* `Binary64.Rounds.abs_sub_le` — the rounding error.
* `Binary64.Rounds.magnitude_eq` — numbers with few enough bits are kept.
* `Binary64.rounds_product`, `Binary64.rounds_quotient` — products and quotients round once.
-/

namespace HeadUnit.Binary64

variable {num den : Nat} {u : Int}

/-! ## Rounding to integers -/

theorem two_zpow_eq (u : Int) : (2 : ℚ) ^ u = 2 ^ u.toNat / 2 ^ (-u).toNat := by
  rw [← zpow_natCast, ← zpow_natCast, ← zpow_sub₀ two_ne_zero]
  congr 1
  omega

theorem scaleDown_pos (num : Nat) (hden : 0 < den) (u : Int) : 0 < (scaleDown num den u).2 := by
  unfold scaleDown
  split
  · exact Nat.mul_pos hden (Nat.two_pow_pos _)
  · exact hden

theorem scaleDown_ratio (num : Nat) (hden : 0 < den) (u : Int) :
    ((scaleDown num den u).1 : ℚ) / (scaleDown num den u).2 = num / den / 2 ^ u := by
  have hq : (den : ℚ) ≠ 0 := by positivity
  unfold scaleDown
  rw [two_zpow_eq]
  split
  case isTrue hu =>
    have hneg : (-u).toNat = 0 := by omega
    simp only [Nat.pow_eq, hneg, pow_zero, div_one, Nat.cast_mul, Nat.cast_pow, Nat.cast_ofNat]
    rw [div_mul_eq_div_div]
  case isFalse hu =>
    have hpos : u.toNat = 0 := by omega
    simp only [Nat.pow_eq, hpos, pow_zero, Nat.cast_mul, Nat.cast_pow, Nat.cast_ofNat]
    field_simp

/-- What is left of a quotient after rounding, with the half that it stays below. -/
theorem roundHalfEven_cases (num : Nat) (hden : 0 < den) :
    ∃ t : ℚ, (num : ℚ) / den = (num / den : Nat) + t ∧ 0 ≤ t ∧ t < 1 ∧
      (roundHalfEven num den = num / den ∧ t ≤ 1 / 2 ∧ (t = 1 / 2 → Even (num / den)) ∨
        roundHalfEven num den = num / den + 1 ∧ 1 / 2 ≤ t ∧
          (t = 1 / 2 → Even (num / den + 1))) := by
  have hq : (0 : ℚ) < den := by exact_mod_cast hden
  have hrest : ((num % den : Nat) : ℚ) < den := by exact_mod_cast Nat.mod_lt num hden
  have hhalf : ((num % den : Nat) : ℚ) / den = 1 / 2 ↔ 2 * (num % den) = den := by
    rw [div_eq_div_iff hq.ne' two_ne_zero, one_mul, mul_comm]
    exact_mod_cast Iff.rfl
  refine ⟨(num % den : Nat) / den, ?_, by positivity, (div_lt_one hq).2 hrest, ?_⟩
  · have hdiv : (num : ℚ) = den * (num / den : Nat) + (num % den : Nat) := by
      exact_mod_cast (Nat.div_add_mod num den).symm
    rw [div_eq_iff hq.ne', add_mul, div_mul_cancel₀ _ hq.ne', mul_comm _ (den : ℚ)]
    exact hdiv
  · rw [hhalf, roundHalfEven]
    split
    case isTrue h =>
      simp only [Bool.or_eq_true, decide_eq_true_eq, Bool.and_eq_true, beq_iff_eq] at h
      have hle : (den : ℚ) ≤ 2 * (num % den : Nat) := by
        have : den ≤ 2 * (num % den) := by omega
        exact_mod_cast this
      refine .inr ⟨rfl, ?_, fun htie => Nat.even_iff.2 (by omega)⟩
      rw [div_le_div_iff₀ two_pos hq]
      linarith
    case isFalse h =>
      simp only [Bool.or_eq_true, decide_eq_true_eq, Bool.and_eq_true, beq_iff_eq] at h
      have hle : 2 * ((num % den : Nat) : ℚ) ≤ den := by
        have : 2 * (num % den) ≤ den := by omega
        exact_mod_cast this
      refine .inl ⟨rfl, ?_, fun htie => Nat.even_iff.2 (by omega)⟩
      rw [div_le_div_iff₀ hq two_pos]
      linarith

/-- A rounded quotient is off by a half at most. -/
theorem abs_sub_roundHalfEven_le (num : Nat) (hden : 0 < den) :
    |(num : ℚ) / den - roundHalfEven num den| ≤ 1 / 2 := by
  obtain ⟨t, heq, hlow, hhigh, ⟨hround, hhalf, -⟩ | ⟨hround, hhalf, -⟩⟩ :=
    roundHalfEven_cases num hden
  all_goals
    rw [heq, hround, abs_le]
    push_cast
    constructor <;> linarith

/-- A quotient is rounded to `n` if it is off by less than a half, or by a half and `n` is even. -/
theorem roundHalfEven_eq {n : Nat} (hden : 0 < den) (hle : |(num : ℚ) / den - n| ≤ 1 / 2)
    (htie : |(num : ℚ) / den - n| = 1 / 2 → Even n) : roundHalfEven num den = n := by
  obtain ⟨t, heq, hlow, hhigh, hcases⟩ := roundHalfEven_cases num hden
  rw [heq] at hle htie
  generalize num / den = q at *
  obtain ⟨hleft, hright⟩ := abs_le.1 hle
  -- `n` is one of the two integers around the quotient.
  obtain rfl | rfl : n = q ∨ n = q + 1 := by
    have hlow' : (q : ℚ) < n + 1 := by linarith
    have hhigh' : (n : ℚ) < q + 2 := by linarith
    have hlow'' : q < n + 1 := by exact_mod_cast hlow'
    have hhigh'' : n < q + 2 := by exact_mod_cast hhigh'
    omega
  · obtain ⟨hround, -⟩ | ⟨hround, hhalf, heven⟩ := hcases
    · exact hround
    · have ht : t = 1 / 2 := by linarith
      have hn : Even n := htie (by rw [ht]; norm_num)
      exact absurd (heven ht) (by rw [Nat.even_add_one]; exact not_not.2 hn)
  · push_cast at hleft hright htie
    obtain ⟨hround, hhalf, heven⟩ | ⟨hround, -⟩ := hcases
    · have ht : t = 1 / 2 := by linarith
      have hn : Even (q + 1) := htie (by rw [ht]; norm_num)
      exact absurd (heven ht) (Nat.even_add_one.1 hn)
    · exact hround

/-! ## The last place -/

/-- The last place of the doubles around `r` is worth `2 ^ e`: it leaves fifty-three bits, or
fewer if it is the least one. -/
structure LastPlace (r : ℚ) (e : Int) : Prop where
  least : -1074 ≤ e
  lt : r < 2 ^ 53 * 2 ^ e
  le : -1074 < e → 2 ^ 52 * 2 ^ e ≤ r

namespace LastPlace

variable {r : ℚ} {e e' : Int}

theorem le_of_lt (h : LastPlace r e) (he' : -1074 ≤ e') (hlt : r < 2 ^ 53 * 2 ^ e') : e ≤ e' := by
  by_contra hgt
  have hle := h.le (by omega)
  have hpow : (2 : ℚ) ^ (e' + 1) ≤ 2 ^ e := zpow_le_zpow_right₀ one_le_two (by omega)
  rw [zpow_add_one₀ two_ne_zero] at hpow
  linarith

theorem unique (h : LastPlace r e) (h' : LastPlace r e') : e = e' :=
  le_antisymm (h.le_of_lt h'.least h'.lt) (h'.le_of_lt h.least h.lt)

end LastPlace

/-- The ratio of two numbers lies in the two binades that their lengths allow. -/
theorem ratio_bounds (hnum : 0 < num) (hden : 0 < den) :
    (2 : ℚ) ^ ((num.log2 : Int) - den.log2 - 1) ≤ num / den ∧
      (num : ℚ) / den < 2 ^ ((num.log2 : Int) - den.log2 + 1) := by
  have hq : (0 : ℚ) < den := by exact_mod_cast hden
  have hnumLow : (2 : ℚ) ^ (num.log2 : Int) ≤ num := by
    exact_mod_cast Nat.log2_self_le hnum.ne'
  have hnumHigh : (num : ℚ) < 2 ^ ((num.log2 : Int) + 1) := by
    exact_mod_cast Nat.lt_log2_self (n := num)
  have hdenLow : (2 : ℚ) ^ (den.log2 : Int) ≤ den := by
    exact_mod_cast Nat.log2_self_le hden.ne'
  have hdenHigh : (den : ℚ) < 2 ^ ((den.log2 : Int) + 1) := by
    exact_mod_cast Nat.lt_log2_self (n := den)
  constructor
  · rw [le_div_iff₀ hq]
    calc (2 : ℚ) ^ ((num.log2 : Int) - den.log2 - 1) * den
        ≤ 2 ^ ((num.log2 : Int) - den.log2 - 1) * 2 ^ ((den.log2 : Int) + 1) := by gcongr
      _ = 2 ^ (num.log2 : Int) := by rw [← zpow_add₀ two_ne_zero]; congr 1; ring
      _ ≤ num := hnumLow
  · rw [div_lt_iff₀ hq]
    calc (num : ℚ) < 2 ^ ((num.log2 : Int) + 1) := hnumHigh
      _ = 2 ^ ((num.log2 : Int) - den.log2 + 1) * 2 ^ (den.log2 : Int) := by
        rw [← zpow_add₀ two_ne_zero]; congr 1; ring
      _ ≤ 2 ^ ((num.log2 : Int) - den.log2 + 1) * den := by gcongr

theorem lastPlace_unitExponent (hnum : 0 < num) (hden : 0 < den) :
    LastPlace (num / den) (unitExponent num den) := by
  obtain ⟨hlow, hhigh⟩ := ratio_bounds hnum hden
  unfold unitExponent
  set guess := max ((num.log2 : Int) - den.log2 - 53) (-1074) with hguess
  have hscaled : (scaleDown num den guess).1 / (scaleDown num den guess).2 < 0x20000000000000 ↔
      (num : ℚ) / den < 2 ^ 53 * 2 ^ guess := by
    have hpos := scaleDown_pos num hden guess
    rw [Nat.div_lt_iff_lt_mul hpos, ← div_lt_iff₀ (by positivity),
      ← scaleDown_ratio num hden guess, div_lt_iff₀ (by exact_mod_cast hpos)]
    norm_cast
  have hle : -1074 < guess → 2 ^ 52 * 2 ^ guess ≤ (num : ℚ) / den := fun h => by
    refine le_trans (le_of_eq ?_) hlow
    rw [← zpow_natCast, ← zpow_add₀ two_ne_zero]
    congr 1
    push_cast
    omega
  dsimp only
  split
  case isTrue h => exact ⟨le_max_right _ _, hscaled.1 h, hle⟩
  case isFalse h =>
    have hge : 2 ^ 53 * 2 ^ guess ≤ (num : ℚ) / den := not_lt.1 (mt hscaled.2 h)
    refine ⟨by omega, ?_, fun _ => ?_⟩
    · refine hhigh.trans_le ?_
      rw [← zpow_natCast, ← zpow_add₀ two_ne_zero]
      refine zpow_le_zpow_right₀ one_le_two ?_
      push_cast
      omega
    · rw [zpow_add_one₀ two_ne_zero]
      linarith

/-! ## Rounding to doubles -/

/-- The least number that rounds to an infinity. -/
def overflow : ℚ :=
  (2 ^ 53 - 1 / 2) * 2 ^ (971 : Int)

/-- The double is what `r` rounds to. -/
def Rounds (r : ℚ) (x : Binary64) : Prop :=
  ∃ num den : Nat, 0 < den ∧ r = num / den ∧ x = ofRatio num den

theorem ofRatio_zero (den : Nat) : ofRatio 0 den = zero := by
  have hscaled : ∀ u, (scaleDown 0 den u).1 = 0 := fun u => by
    unfold scaleDown
    split
    · rfl
    · exact Nat.zero_mul _
  have hround : ∀ d, roundHalfEven 0 d = 0 := fun d => by simp [roundHalfEven]
  unfold ofRatio
  dsimp only
  rw [hscaled, hround]
  rfl

/-- The significand after rounding has fifty-three bits as well, up to a carry. -/
theorem roundHalfEven_scaleDown_bounds {r : ℚ} {e : Int} (hden : 0 < den) (hr : r = num / den)
    (hplace : LastPlace r e) :
    let q := roundHalfEven (scaleDown num den e).1 (scaleDown num den e).2
    |r - q * 2 ^ e| ≤ 2 ^ e / 2 ∧ q ≤ 0x20000000000000 ∧
      (-1074 < e → 0x10000000000000 ≤ q) := by
  intro q
  have hpow : (0 : ℚ) < 2 ^ e := by positivity
  have hoff : |r / 2 ^ e - q| ≤ 1 / 2 := by
    rw [hr, ← scaleDown_ratio num hden e]
    exact abs_sub_roundHalfEven_le _ (scaleDown_pos num hden e)
  have hlt : r / 2 ^ e < 2 ^ 53 := (div_lt_iff₀ hpow).2 hplace.lt
  obtain ⟨hleft, hright⟩ := abs_le.1 hoff
  refine ⟨?_, ?_, fun h => ?_⟩
  · have hscale : r - q * 2 ^ e = (r / 2 ^ e - q) * 2 ^ e := by
      field_simp
    rw [hscale, abs_mul, abs_of_pos hpow]
    linarith [mul_le_mul_of_nonneg_right hoff hpow.le]
  · have hq : (q : ℚ) < 0x20000000000000 + 1 := by linarith
    have hq' : q < 0x20000000000000 + 1 := by exact_mod_cast hq
    omega
  · have hle : (2 : ℚ) ^ 52 ≤ r / 2 ^ e := (le_div_iff₀ hpow).2 (hplace.le h)
    have hq : (0x10000000000000 : ℚ) < q + 1 := by linarith
    have hq' : 0x10000000000000 < q + 1 := by exact_mod_cast hq
    omega

theorem pack_lt_of_lt_overflow {r : ℚ} {e : Int} {q : Nat} (hplace : LastPlace r e)
    (hr : r < overflow) (hoff : |r - q * 2 ^ e| ≤ 2 ^ e / 2) (hq : q ≤ 0x20000000000000) :
    pack q e < 2047 * 0x10000000000000 := by
  have hpow : (0 : ℚ) < 2 ^ e := by positivity
  have hle : e ≤ 971 := by
    by_contra hgt
    have hlow := hplace.le (by omega)
    have hgreat : (2 : ℚ) ^ (971 + 1 : Int) ≤ 2 ^ e := zpow_le_zpow_right₀ one_le_two (by omega)
    rw [zpow_add_one₀ two_ne_zero] at hgreat
    have h971 : (0 : ℚ) < 2 ^ (971 : Int) := by positivity
    rw [overflow] at hr
    generalize (2 : ℚ) ^ (971 : Int) = top at *
    linarith
  have hcarry : e = 971 → q < 0x20000000000000 := by
    rintro rfl
    have hright := (abs_le.1 hoff).1
    rw [overflow] at hr
    have hlt : (q : ℚ) * 2 ^ (971 : Int) < 2 ^ 53 * 2 ^ (971 : Int) := by linarith
    have hq := lt_of_mul_lt_mul_right hlt hpow.le
    exact_mod_cast hq
  unfold pack
  split
  · omega
  · have hleast := hplace.least
    by_cases he : e = 971
    · have := hcarry he
      omega
    · omega

/-- Below the overflow a number rounds to a multiple of its last place that is off by half of it at
most. -/
theorem Rounds.exists_lastPlace {r : ℚ} {x : Binary64} (h : Rounds r x) (hr : r < overflow) :
    x.isFinite = true ∧ x.isNegative = false ∧ ∃ (e : Int) (q : Nat), LastPlace r e ∧
      x.magnitude = q * 2 ^ e ∧ |r - q * 2 ^ e| ≤ 2 ^ e / 2 := by
  obtain ⟨num, den, hden, hratio, rfl⟩ := h
  obtain rfl | hnum := Nat.eq_zero_or_pos num
  · obtain rfl : r = 0 := by simpa using hratio
    rw [ofRatio_zero]
    have hzero : zero.magnitude = (0 : Nat) * 2 ^ (-1074 : Int) := by
      rw [magnitude_zero, Nat.cast_zero, zero_mul]
    refine ⟨by decide, by decide, -1074, 0, ⟨le_rfl, by positivity, fun h => absurd h (by omega)⟩,
      hzero, ?_⟩
    rw [Nat.cast_zero, zero_mul, sub_zero, abs_zero]
    positivity
  · have hplace : LastPlace r (unitExponent num den) := hratio ▸ lastPlace_unitExponent hnum hden
    obtain ⟨hoff, hle, hnormal⟩ := roundHalfEven_scaleDown_bounds hden hratio hplace
    have hfinite := pack_lt_of_lt_overflow hplace hr hoff hle
    exact ⟨isFinite_of_bits_lt _ hfinite, isNegative_of_bits_lt hfinite, _, _, hplace,
      magnitude_pack hle hplace.least hnormal hfinite, hoff⟩

/-- The rounding error is small next to the number, or half of the least double. -/
theorem Rounds.abs_sub_le {r : ℚ} {x : Binary64} (h : Rounds r x) (hr : r < overflow) :
    |r - x.magnitude| ≤ r / 2 ^ 53 ∨ |r - x.magnitude| ≤ 2 ^ (-1075 : Int) := by
  obtain ⟨-, -, e, q, hplace, hmagnitude, hoff⟩ := h.exists_lastPlace hr
  rw [hmagnitude]
  by_cases he : -1074 < e
  · have hle := hplace.le he
    exact .inl (hoff.trans (by linarith))
  · obtain rfl : e = -1074 := le_antisymm (by omega) hplace.least
    refine .inr (hoff.trans (le_of_eq ?_))
    rw [div_eq_mul_inv, ← zpow_sub_one₀ two_ne_zero]
    rfl

/-- Integers are no nearer to a number than the one that is off by a half at most. -/
theorem abs_sub_le_abs_sub_of_le_half {t : ℚ} {q n : Nat} (h : |t - q| ≤ 1 / 2) :
    |t - q| ≤ |t - n| := by
  obtain rfl | hne := eq_or_ne q n
  · exact le_rfl
  · have hapart : (1 : ℚ) ≤ |(q : ℚ) - n| := by
      have : (1 : Int) ≤ |(q : Int) - n| := Int.one_le_abs (by omega)
      exact_mod_cast this
    have htriangle := abs_sub_le (q : ℚ) t n
    rw [abs_sub_comm (q : ℚ) t] at htriangle
    linarith

theorem abs_sub_le_abs_sub_of_multiple {r : ℚ} {e : Int} {q : Nat}
    (hoff : |r - q * 2 ^ e| ≤ 2 ^ e / 2) (n : Nat) : |r - q * 2 ^ e| ≤ |r - n * 2 ^ e| := by
  have hpow : (0 : ℚ) < 2 ^ e := by positivity
  have hscale : ∀ n : Nat, |r - n * 2 ^ e| = |r / 2 ^ e - n| * 2 ^ e := fun n => by
    rw [← abs_of_pos hpow, ← abs_mul, abs_of_pos hpow, sub_mul, div_mul_cancel₀ _ hpow.ne']
  rw [hscale] at hoff
  rw [hscale, hscale]
  refine mul_le_mul_of_nonneg_right (abs_sub_le_abs_sub_of_le_half ?_) hpow.le
  exact le_of_mul_le_mul_right (by linarith) hpow

/-- No double is nearer to a number than the one that the number rounds to. -/
theorem Rounds.abs_sub_le_abs_sub {r : ℚ} {x y : Binary64} (h : Rounds r x) (hr : r < overflow)
    (hy : y.isFinite = true) : |r - x.magnitude| ≤ |r - y.magnitude| := by
  obtain ⟨-, -, e, q, hplace, hmagnitude, hoff⟩ := h.exists_lastPlace hr
  have hparts := parts_of_isFinite hy
  rw [hmagnitude]
  by_cases hgrid : e ≤ y.exponent
  -- A double of this binade or a greater one is a multiple of the last place.
  · have hmultiple : y.magnitude = (y.significand * 2 ^ (y.exponent - e).toNat : Nat) * 2 ^ e := by
      push_cast
      rw [magnitude, mul_assoc, ← zpow_natCast, ← zpow_add₀ two_ne_zero]
      congr 2
      omega
    rw [hmultiple]
    exact abs_sub_le_abs_sub_of_multiple hoff _
  -- A double of a smaller binade lies beyond the least multiple of this one.
  · have hlow := hplace.le (by have := hparts.least; omega)
    have hleast := abs_sub_le_abs_sub_of_multiple hoff 0x10000000000000
    have hsmall : y.magnitude ≤ 2 ^ 52 * 2 ^ e := by
      have hexponent : (2 : ℚ) ^ (y.exponent + 1) ≤ 2 ^ e :=
        zpow_le_zpow_right₀ one_le_two (by omega)
      have hsignificand : (y.significand : ℚ) ≤ 2 ^ 53 := by exact_mod_cast hparts.lt.le
      have hunit : (0 : ℚ) < 2 ^ y.exponent := by positivity
      rw [zpow_add_one₀ two_ne_zero] at hexponent
      have := mul_le_mul_of_nonneg_right hsignificand hunit.le
      rw [magnitude]
      linarith
    push_cast at hleast
    refine hleast.trans ?_
    rw [abs_of_nonneg (by linarith), abs_of_nonneg (by linarith)]
    linarith

/-- A number with few enough bits is its own double. -/
theorem Rounds.magnitude_eq {r : ℚ} {x : Binary64} {n : Nat} {e : Int} (h : Rounds r x)
    (hr : r < overflow) (heq : r = n * 2 ^ e) (hn : n < 0x20000000000000) (he : -1074 ≤ e) :
    x.magnitude = r := by
  obtain ⟨-, -, e', q, hplace, hmagnitude, hoff⟩ := h.exists_lastPlace hr
  have hle : e' ≤ e := by
    refine hplace.le_of_lt he ?_
    have hn' : (n : ℚ) < 2 ^ 53 := by exact_mod_cast hn
    rw [heq]
    exact mul_lt_mul_of_pos_right hn' (by positivity)
  have hmultiple : r = (n * 2 ^ (e - e').toNat : Nat) * 2 ^ e' := by
    push_cast
    rw [heq, mul_assoc, ← zpow_natCast, ← zpow_add₀ two_ne_zero]
    congr 2
    omega
  have hnone := abs_sub_le_abs_sub_of_multiple hoff (n * 2 ^ (e - e').toNat)
  rw [← hmultiple, sub_self, abs_zero] at hnone
  rw [hmagnitude]
  exact (sub_eq_zero.1 (abs_nonpos_iff.1 hnone)).symm

/-! ## Arithmetic -/

theorem rounds_ofNat (n : Nat) : Rounds n (ofNat n) :=
  ⟨n, 1, one_pos, by simp, rfl⟩

theorem rounds_ofScaled (significand : Nat) (e : Int) (hden : 0 < den) :
    Rounds (significand * 2 ^ e / den) (ofScaled significand e den) := by
  unfold ofScaled
  rw [two_zpow_eq]
  split
  case isTrue he =>
    have hneg : (-e).toNat = 0 := by omega
    refine ⟨_, den, hden, ?_, rfl⟩
    rw [hneg]
    push_cast
    simp
  case isFalse he =>
    have hpos : e.toNat = 0 := by omega
    refine ⟨significand, _, Nat.mul_pos hden (Nat.two_pow_pos _), ?_, rfl⟩
    rw [hpos]
    push_cast
    field_simp

/-- A product rounds once. -/
theorem rounds_product (x y : Binary64) : Rounds (x.magnitude * y.magnitude) (x.product y) := by
  have hratio : x.magnitude * y.magnitude =
      (x.significand * y.significand : Nat) * 2 ^ (x.exponent + y.exponent) / (1 : Nat) := by
    rw [zpow_add₀ two_ne_zero, magnitude, magnitude]
    push_cast
    ring
  rw [hratio]
  exact rounds_ofScaled _ _ one_pos

/-- A quotient rounds once. -/
theorem rounds_quotient (x : Binary64) {y : Binary64} (hy : 0 < y.significand) :
    Rounds (x.magnitude / y.magnitude) (x.quotient y) := by
  have hratio : x.magnitude / y.magnitude =
      x.significand * 2 ^ (x.exponent - y.exponent) / y.significand := by
    rw [zpow_sub₀ two_ne_zero, magnitude, magnitude]
    field_simp
  rw [hratio]
  exact rounds_ofScaled _ _ hy

end HeadUnit.Binary64
