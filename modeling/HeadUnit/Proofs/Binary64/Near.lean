import HeadUnit.Proofs.Binary64.Rounding

/-!
# The numbers that round to a double

A number rounds to a double if it is less than halfway to the neighbours of the double, or halfway
and the double has an even significand. Just below a power of two the neighbour is only half as
far.

## Main definitions

* `Binary64.Near` — numbers that are so near to a double that they round to it.

## Main statements

* `Binary64.Rounds.eq_of_near` — a number that is near to a double rounds to it.
-/

namespace HeadUnit.Binary64

variable {num den : Nat}

/-- The distance to the next smaller double, which is half a unit below a power of two. -/
def gapBelow (x : Binary64) : ℚ :=
  if x.significand = 0x10000000000000 ∧ -1074 < x.exponent then x.unit / 2 else x.unit

/-- The number is at most halfway to a neighbour of the magnitude, and exactly halfway only if the
significand is even. -/
structure Near (x : Binary64) (r : ℚ) : Prop where
  lower : x.magnitude - x.gapBelow / 2 ≤ r
  upper : r ≤ x.magnitude + x.unit / 2
  tie : r = x.magnitude - x.gapBelow / 2 ∨ r = x.magnitude + x.unit / 2 → Even x.significand

theorem gapBelow_le (x : Binary64) : x.gapBelow ≤ x.unit := by
  have := x.unit_pos
  unfold gapBelow
  split <;> linarith

theorem Near.abs_sub_le {x : Binary64} {r : ℚ} (h : x.Near r) : |r - x.magnitude| ≤ x.unit / 2 := by
  have := x.gapBelow_le
  have := h.lower
  have := h.upper
  rw [abs_le]
  constructor <;> linarith

theorem gapBelow_pos (x : Binary64) : 0 < x.gapBelow := by
  have := x.unit_pos
  unfold gapBelow
  split <;> linarith

/-- What lies above the double, by less than half a unit, rounds to it. -/
theorem near_of_lt {x : Binary64} {r : ℚ} (hle : x.magnitude ≤ r)
    (hlt : r < x.magnitude + x.unit / 2) :
    x.Near r := by
  have hgap := x.gapBelow_pos
  refine ⟨by linarith, hlt.le, ?_⟩
  rintro (h | h)
  · linarith
  · exact absurd h hlt.ne

theorem ofRatio_eq_of_lastPlace {r : ℚ} {e : Int} {q : Nat} (hnum : 0 < num) (hden : 0 < den)
    (hr : r = num / den) (hplace : LastPlace r e) (hoff : |r - q * 2 ^ e| ≤ 2 ^ e / 2)
    (htie : |r - q * 2 ^ e| = 2 ^ e / 2 → Even q) : ofRatio num den = ⟨(pack q e).toUInt64⟩ := by
  have hpow : (0 : ℚ) < 2 ^ e := by positivity
  have hunit : unitExponent num den = e := (hr ▸ lastPlace_unitExponent hnum hden).unique hplace
  have hscale : |r - q * 2 ^ e| = |r / 2 ^ e - q| * 2 ^ e := by
    rw [← abs_of_pos hpow, ← abs_mul, abs_of_pos hpow, sub_mul, div_mul_cancel₀ _ hpow.ne']
  rw [hscale] at hoff htie
  unfold ofRatio
  dsimp only
  rw [hunit]
  congr 3
  apply roundHalfEven_eq (scaleDown_pos num hden e)
  · rw [scaleDown_ratio num hden e, ← hr]
    exact le_of_mul_le_mul_right (by linarith) hpow
  · rw [scaleDown_ratio num hden e, ← hr]
    intro h
    exact htie (by rw [h]; ring)

/-- A number that is near to a double rounds to it. -/
theorem Rounds.eq_of_near {r : ℚ} {x y : Binary64} (h : Rounds r y) (hpos : 0 < r)
    (hfinite : x.isFinite = true) (hsign : x.isNegative = false) (hnear : x.Near r) : y = x := by
  obtain ⟨num, den, hden, hratio, rfl⟩ := h
  have hnum : 0 < num := by
    rcases Nat.eq_zero_or_pos num with rfl | hnum
    · simp [hratio] at hpos
    · exact hnum
  have hparts := parts_of_isFinite hfinite
  have hbits : x = ⟨(pack x.significand x.exponent).toUInt64⟩ := by
    rw [pack_significand_exponent hfinite hsign]
    cases x
    simp
  obtain ⟨hlower, hupper, htie⟩ := hnear
  have hunit : (0 : ℚ) < 2 ^ x.exponent := x.unit_pos
  rw [hbits]
  simp only [magnitude, unit] at hlower hupper htie
  by_cases hbelow : x.significand = 0x10000000000000 ∧ -1074 < x.exponent ∧
      r < 2 ^ 52 * 2 ^ x.exponent
  -- Below a power of two the number is rounded in the binade below, and carries.
  · obtain ⟨hm, he, hlt⟩ := hbelow
    have hgap : x.gapBelow = 2 ^ x.exponent / 2 := if_pos ⟨hm, he⟩
    have hhalf : (2 : ℚ) ^ x.exponent = 2 ^ (x.exponent - 1) * 2 := by
      rw [← zpow_add_one₀ two_ne_zero, sub_add_cancel]
    rw [hgap, hm, hhalf] at hlower
    rw [hhalf] at hlt
    push_cast at hlower
    have hcarry : pack x.significand x.exponent = pack 0x20000000000000 (x.exponent - 1) := by
      rw [hm]
      unfold pack
      rw [if_neg (by omega), if_neg (by omega)]
      omega
    rw [hcarry]
    refine ofRatio_eq_of_lastPlace hnum hden hratio ⟨by omega, by linarith, fun _ => ?_⟩ ?_ ?_
    · linarith
    · rw [abs_le]
      push_cast
      constructor <;> linarith
    · exact fun _ => ⟨0x10000000000000, rfl⟩
  · have hm : (x.significand : ℚ) + 1 ≤ 2 ^ 53 := by exact_mod_cast hparts.lt
    have hgap := x.gapBelow_le
    unfold unit at hgap
    refine ofRatio_eq_of_lastPlace hnum hden hratio ⟨hparts.least, ?_, fun he => ?_⟩ ?_ fun h => ?_
    · have := mul_le_mul_of_nonneg_right hm hunit.le
      linarith
    · by_cases hpower : x.significand = 0x10000000000000
      · exact not_lt.1 fun hlt => hbelow ⟨hpower, he, hlt⟩
      · have hnormal := hparts.normal he
        have hm' : (2 : ℚ) ^ 52 + 1 ≤ x.significand := by
          exact_mod_cast (by omega : 0x10000000000000 + 1 ≤ x.significand)
        have := mul_le_mul_of_nonneg_right hm' hunit.le
        linarith
    · rw [abs_le]
      constructor <;> linarith
    · rcases (abs_eq (by positivity)).1 h with heq | heq
      · exact htie (.inr (by linarith))
      · exact htie (.inl (by linarith))

end HeadUnit.Binary64
