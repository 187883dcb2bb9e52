import HeadUnit.Decimal.Shortest
import HeadUnit.Proofs.Binary64.Near

/-!
# The shortest decimal

The search for the shortest decimal succeeds on one of its grids, because the last grid is finer
than half of the double's last place. The decimal rounds to the double, and its digits make a
number of at most eighteen digits, because no coarser grid had a point.

## Main definitions

* `Binary64.gridScale` — how many units of a grid step's interval make one.
* `Binary64.decimalAt` — the decimal of a grid point.

## Main statements

* `Binary64.holds_neighbourhood_iff` — the grid points that are tried round to the double.
* `Binary64.exists_shortest` — what is known of the shortest decimal.
-/

namespace HeadUnit.Binary64

variable {x : Binary64}

/-! ## Powers of ten and of two -/

theorem ten_zpow_le_two_pow {a : Int} {n : Nat} (h : 10 * a ≤ 3 * n) : (10 : ℚ) ^ a ≤ 2 ^ n := by
  refine le_of_pow_le_pow_left₀ (n := 10) (by decide) (by positivity) ?_
  calc ((10 : ℚ) ^ a) ^ 10 = 10 ^ (10 * a) := by rw [← zpow_natCast, ← zpow_mul, mul_comm]; rfl
    _ ≤ 10 ^ (3 * n : Int) := zpow_le_zpow_right₀ (by norm_num) h
    _ = (10 ^ 3) ^ n := by rw [zpow_mul]; norm_cast
    _ ≤ (2 ^ 10) ^ n := by gcongr; norm_num
    _ = (2 ^ n) ^ 10 := by rw [← pow_mul, ← pow_mul, mul_comm]

theorem two_pow_le_ten_zpow {a : Int} {n : Nat} (h : 28 * n ≤ 93 * a) : (2 : ℚ) ^ n ≤ 10 ^ a := by
  refine le_of_pow_le_pow_left₀ (n := 93) (by decide) (by positivity) ?_
  calc ((2 : ℚ) ^ n) ^ 93 = (2 ^ 93) ^ n := by rw [← pow_mul, ← pow_mul, mul_comm]
    _ ≤ (10 ^ 28) ^ n := by gcongr; norm_num
    _ = 10 ^ (28 * n : Int) := by rw [zpow_mul]; norm_cast
    _ ≤ 10 ^ (93 * a) := zpow_le_zpow_right₀ (by norm_num) h
    _ = ((10 : ℚ) ^ a) ^ 93 := by rw [← zpow_natCast, ← zpow_mul, mul_comm]; rfl

/-- A power of ten below one of two. -/
theorem ten_zpow_le_two_zpow {a b : Int} (hpos : 0 ≤ b → 10 * a ≤ 3 * b)
    (hneg : b < 0 → 93 * a ≤ 28 * b) : (10 : ℚ) ^ a ≤ 2 ^ b := by
  rcases le_or_gt 0 b with hb | hb
  · obtain ⟨n, rfl⟩ := Int.eq_ofNat_of_zero_le hb
    exact_mod_cast ten_zpow_le_two_pow (hpos hb)
  · obtain ⟨n, hn⟩ : ∃ n : Nat, b = -n := ⟨b.natAbs, by omega⟩
    have hinv := two_pow_le_ten_zpow (a := -a) (n := n) (by have := hneg hb; omega)
    rw [hn, ← neg_neg a, zpow_neg, zpow_neg _ (n : Int), zpow_natCast]
    exact inv_anti₀ (by positivity) hinv

/-- A power of two below one of ten. -/
theorem two_zpow_le_ten_zpow {a b : Int} (hpos : 0 ≤ b → 28 * b ≤ 93 * a)
    (hneg : b < 0 → 3 * b ≤ 10 * a) : (2 : ℚ) ^ b ≤ 10 ^ a := by
  have hinv := ten_zpow_le_two_zpow (a := -a) (b := -b) (fun hb => ?_) (fun hb => ?_)
  · rw [zpow_neg, zpow_neg] at hinv
    exact (inv_le_inv₀ (by positivity) (by positivity)).1 hinv
  · rcases hb.eq_or_lt with hb | hb
    · have := hpos (by omega)
      omega
    · have := hneg (by omega)
      omega
  · have := hpos (by omega)
    omega

theorem ten_zpow_eq (a : Int) : (10 : ℚ) ^ a = 10 ^ a.toNat / 10 ^ (-a).toNat := by
  rw [← zpow_natCast, ← zpow_natCast, ← zpow_sub₀ (by norm_num)]
  congr 1
  omega

/-! ## Grids -/

/-- What a magnitude is multiplied with to measure it on a grid in whole numbers. -/
def gridScale (x : Binary64) (step : Int) : ℚ :=
  2 ^ (-(x.exponent - 2)).toNat * 10 ^ (-step).toNat

section Neighbourhood

variable (hpos : 0 < x.significand) (step : Int)

theorem gridScale_pos : 0 < x.gridScale step := by
  unfold gridScale
  positivity

theorem unit_eq_zpow : x.unit = 4 * 2 ^ (x.exponent - 2) := by
  have hexponent : x.exponent = (x.exponent - 2) + 2 := by omega
  rw [unit, hexponent, zpow_add₀ two_ne_zero]
  norm_num
  ring

theorem up_eq : ((Nat.pow 2 (x.exponent - 2).toNat * Nat.pow 10 (-step).toNat : Nat) : ℚ) =
    x.unit / 4 * x.gridScale step := by
  rw [unit_eq_zpow, gridScale, two_zpow_eq]
  push_cast
  simp only [Nat.pow_eq, Nat.cast_pow, Nat.cast_ofNat]
  field_simp

theorem neighbourhood_unit : ((x.neighbourhood step).unit : ℚ) = 10 ^ step * x.gridScale step := by
  rw [neighbourhood, gridScale, ten_zpow_eq]
  push_cast
  simp only [Nat.pow_eq, Nat.cast_pow, Nat.cast_ofNat]
  field_simp

theorem neighbourhood_value :
    ((x.neighbourhood step).value : ℚ) = x.magnitude * x.gridScale step := by
  have hup := up_eq (x := x) step
  rw [neighbourhood, magnitude_eq_mul_unit]
  push_cast at hup ⊢
  rw [hup]
  ring

theorem neighbourhood_high :
    ((x.neighbourhood step).high : ℚ) = (x.magnitude + x.unit / 2) * x.gridScale step := by
  have hup := up_eq (x := x) step
  rw [neighbourhood, magnitude_eq_mul_unit]
  push_cast at hup ⊢
  rw [hup]
  ring

include hpos in
theorem neighbourhood_low :
    ((x.neighbourhood step).low : ℚ) = (x.magnitude - x.gapBelow / 2) * x.gridScale step := by
  have hup := up_eq (x := x) step
  have hbelow : (x.significand == 0x10000000000000 && decide (-1074 < x.exponent)) = true ↔
      x.significand = 0x10000000000000 ∧ -1074 < x.exponent := by simp
  rw [neighbourhood, gapBelow, magnitude_eq_mul_unit]
  dsimp only
  rw [Nat.cast_mul, hup]
  split
  case isTrue h =>
    rw [if_pos (hbelow.1 h), Nat.cast_sub (by omega)]
    push_cast
    ring
  case isFalse h =>
    rw [if_neg (mt hbelow.2 h), Nat.cast_sub (by omega)]
    push_cast
    ring

include hpos in
/-- The points of a grid that are tried are those that round to the double. -/
theorem holds_neighbourhood_iff (point : Nat) :
    (x.neighbourhood step).holds point = true ↔ x.Near (point * 10 ^ step) := by
  have hscale := gridScale_pos (x := x) step
  have hpoint : ((point * (x.neighbourhood step).unit : Nat) : ℚ) =
      point * 10 ^ step * x.gridScale step := by
    rw [Nat.cast_mul, neighbourhood_unit]
    ring
  have hlow : (x.neighbourhood step).low ≤ point * (x.neighbourhood step).unit ↔
      x.magnitude - x.gapBelow / 2 ≤ point * 10 ^ step := by
    rw [← Nat.cast_le (α := ℚ), hpoint, neighbourhood_low hpos, mul_le_mul_iff_left₀ hscale]
  have hhigh : point * (x.neighbourhood step).unit ≤ (x.neighbourhood step).high ↔
      point * 10 ^ step ≤ x.magnitude + x.unit / 2 := by
    rw [← Nat.cast_le (α := ℚ), hpoint, neighbourhood_high, mul_le_mul_iff_left₀ hscale]
  have hlowEq : (x.neighbourhood step).low = point * (x.neighbourhood step).unit ↔
      x.magnitude - x.gapBelow / 2 = point * 10 ^ step := by
    rw [← Nat.cast_inj (R := ℚ), hpoint, neighbourhood_low hpos, mul_left_inj' hscale.ne']
  have hhighEq : point * (x.neighbourhood step).unit = (x.neighbourhood step).high ↔
      point * 10 ^ step = x.magnitude + x.unit / 2 := by
    rw [← Nat.cast_inj (R := ℚ), hpoint, neighbourhood_high, mul_left_inj' hscale.ne']
  have hclosed : (x.neighbourhood step).closed = true ↔ Even x.significand := by
    rw [Nat.even_iff]
    exact beq_iff_eq
  unfold Neighbourhood.holds
  dsimp only
  split
  case isTrue heven =>
    rw [decide_eq_true_iff, hlow, hhigh]
    exact ⟨fun h => ⟨h.1, h.2, fun _ => hclosed.1 heven⟩, fun h => ⟨h.lower, h.upper⟩⟩
  case isFalse hodd =>
    rw [decide_eq_true_iff, lt_iff_le_and_ne, lt_iff_le_and_ne, hlow, hhigh, Ne, Ne, hlowEq,
      hhighEq]
    constructor
    · rintro ⟨⟨hlower, hneLow⟩, hupper, hneHigh⟩
      exact ⟨hlower, hupper, fun h => absurd h (by tauto)⟩
    · intro h
      have hne : ¬(point * 10 ^ step = x.magnitude - x.gapBelow / 2 ∨
          point * 10 ^ step = x.magnitude + x.unit / 2) := fun hends =>
        hodd (hclosed.2 (h.tie hends))
      exact ⟨⟨h.lower, fun heq => hne (.inl heq.symm)⟩, h.upper, fun heq => hne (.inr heq)⟩

theorem holds_of_nearest? {b : Neighbourhood} {point : Nat} (h : b.nearest? = some point) :
    b.holds point = true := by
  unfold Neighbourhood.nearest? at h
  dsimp only at h
  grind

include hpos in
/-- A grid whose step is at most half of the last place has a point that rounds to the double. -/
theorem nearest?_ne_none (hstep : (10 : ℚ) ^ step ≤ x.unit / 2) :
    (x.neighbourhood step).nearest? ≠ none := by
  have hscale := gridScale_pos (x := x) step
  have hten : (0 : ℚ) < 10 ^ step := by positivity
  have hunit : 0 < (x.neighbourhood step).unit := by
    have hcast : (0 : ℚ) < (x.neighbourhood step).unit := by
      rw [neighbourhood_unit]
      positivity
    exact_mod_cast hcast
  set below := (x.neighbourhood step).value / (x.neighbourhood step).unit with hbelow
  have hlow : below * 10 ^ step ≤ x.magnitude := by
    have hle : below * (x.neighbourhood step).unit ≤ (x.neighbourhood step).value :=
      Nat.div_mul_le_self _ _
    rw [← Nat.cast_le (α := ℚ), Nat.cast_mul, neighbourhood_unit, neighbourhood_value,
      ← mul_assoc] at hle
    exact le_of_mul_le_mul_right hle hscale
  have hhigh : x.magnitude < (below + 1 : Nat) * 10 ^ step := by
    have hlt : (x.neighbourhood step).value < (below + 1) * (x.neighbourhood step).unit := by
      rw [add_mul, one_mul]
      exact Nat.lt_div_mul_add hunit
    rw [← Nat.cast_lt (α := ℚ), Nat.cast_mul, neighbourhood_unit, neighbourhood_value,
      ← mul_assoc] at hlt
    exact lt_of_mul_lt_mul_right hlt hscale.le
  have hheld : (x.neighbourhood step).holds below = true ∨
      (x.neighbourhood step).holds (below + 1) = true := by
    rw [holds_neighbourhood_iff hpos, holds_neighbourhood_iff hpos]
    rcases hlow.eq_or_lt with heq | hlt
    · have := x.unit_pos
      exact .inl (near_of_lt heq.ge (by linarith))
    · refine .inr (near_of_lt hhigh.le ?_)
      push_cast
      linarith
  unfold Neighbourhood.nearest?
  dsimp only
  rw [← hbelow]
  rcases hheld with h | h <;> rw [h] <;> split <;> simp_all

end Neighbourhood

/-! ## The search -/

/-- The decimal of a grid point. -/
def decimalAt (point : Nat) (step : Int) : Decimal :=
  ⟨Nat.toDigits 10 point, step + (Nat.toDigits 10 point).length - 1⟩

/-- The length of the numbers that round to the double. -/
theorem ceilingExponent_bounds (hfinite : x.isFinite = true) (hpos : 0 < x.significand) :
    ∃ top : Int, x.ceilingExponent = top * 30103 / 100000 + 1 ∧
      top ≤ x.exponent + 53 ∧ x.exponent + 1 ≤ top ∧
      x.magnitude + x.unit / 2 < 2 ^ top := by
  have hparts := parts_of_isFinite hfinite
  have hlt := hparts.lt
  have hlog : (4 * x.significand + 2).log2 < 55 := (Nat.log2_lt (by omega)).2 (by omega)
  have hlog' : 2 ≤ (4 * x.significand + 2).log2 := (Nat.le_log2 (by omega)).2 (by omega)
  refine ⟨_, rfl, by omega, by omega, ?_⟩
  have hlt : ((4 * x.significand + 2 : Nat) : ℚ) < 2 ^ ((4 * x.significand + 2).log2 + 1) := by
    exact_mod_cast Nat.lt_log2_self
  have hpow : (0 : ℚ) < 2 ^ (x.exponent - 2) := by positivity
  rw [magnitude_eq_mul_unit, unit_eq_zpow, zpow_add₀ two_ne_zero]
  have hscaled := mul_lt_mul_of_pos_right hlt hpow
  push_cast at hscaled ⊢
  have htop : (2 : ℚ) ^ ((4 * x.significand + 2).log2 + 1) =
      2 ^ (((4 * x.significand + 2).log2 : Int) + 1) := by
    norm_cast
  rw [← htop]
  linarith

/-- The decimal that the grid `i` steps below the first one has, if any. -/
def gridPoint? (x : Binary64) (i : Nat) : Option Decimal :=
  (x.neighbourhood (x.ceilingExponent - i)).nearest?.map (decimalAt · (x.ceilingExponent - i))

theorem shortest_eq (hpos : 0 < x.significand) :
    x.shortest = ((List.range 24).findSome? x.gridPoint?).getD ⟨['0'], 0⟩ :=
  if_neg hpos.ne'

/-- The last grid is fine enough. -/
theorem gridPoint?_last_ne_none (hfinite : x.isFinite = true) (hpos : 0 < x.significand) :
    x.gridPoint? 23 ≠ none := by
  obtain ⟨top, hceiling, htop, -, -⟩ := ceilingExponent_bounds hfinite hpos
  have hparts := parts_of_isFinite hfinite
  have hleast := hparts.least
  have hle := hparts.le
  have hhalf : x.unit / 2 = 2 ^ (x.exponent - 1) := by
    rw [unit, zpow_sub_one₀ two_ne_zero, div_eq_mul_inv]
  have hfine : (10 : ℚ) ^ (x.ceilingExponent - (23 : Nat)) ≤ x.unit / 2 := by
    rw [hhalf]
    apply ten_zpow_le_two_zpow <;> intro _ <;> omega
  simpa [gridPoint?] using nearest?_ne_none hpos _ hfine

/-- The search stops at the first grid that has a point. -/
theorem exists_first_gridPoint (hfinite : x.isFinite = true) (hpos : 0 < x.significand) :
    ∃ i, x.gridPoint? i = some x.shortest ∧ ∀ j < i, x.gridPoint? j = none := by
  rw [shortest_eq hpos]
  cases hfind : (List.range 24).findSome? x.gridPoint? with
  | none =>
    have hnone := List.findSome?_eq_none_iff.1 hfind 23 (by simp)
    exact absurd hnone (gridPoint?_last_ne_none hfinite hpos)
  | some decimal =>
    obtain ⟨before, i, after, hrange, hpoint, hbefore⟩ := List.findSome?_eq_some_iff.1 hfind
    have hindex : ∀ j (hj : j < (before ++ i :: after).length), (before ++ i :: after)[j] = j := by
      intro j hj
      simp only [← hrange, List.getElem_range]
    have hi : i = before.length := by simpa using hindex before.length (by simp)
    refine ⟨i, hpoint, fun j hj => hbefore j ?_⟩
    have hj' := hindex j (by simp; omega)
    rw [List.getElem_append_left (by omega)] at hj'
    rw [← hj']
    exact List.getElem_mem _

theorem Near.pos (hpos : 0 < x.significand) {r : ℚ} (h : x.Near r) : 0 < r := by
  have hunit := x.unit_pos
  have hgap := x.gapBelow_le
  have hone : (1 : ℚ) ≤ x.significand := by exact_mod_cast hpos
  have hmagnitude := mul_le_mul_of_nonneg_right hone hunit.le
  have hlower := h.lower
  rw [magnitude_eq_mul_unit] at hlower
  linarith

/-- The shortest decimal of a double that is not zero is one of the grid points that round to the
double. It has at most eighteen digits. -/
theorem exists_shortest (hfinite : x.isFinite = true) (hpos : 0 < x.significand) :
    ∃ (point : Nat) (step : Int), x.shortest = decimalAt point step ∧
      x.Near (point * 10 ^ step) ∧ 0 < point ∧ point < 200000000000000000 ∧ -324 ≤ step := by
  obtain ⟨i, hpoint, hfirst⟩ := exists_first_gridPoint hfinite hpos
  obtain ⟨point, hnearest, hshortest⟩ := Option.map_eq_some_iff.1 hpoint
  obtain ⟨top, hceiling, htopLe, htop, hlt⟩ := ceilingExponent_bounds hfinite hpos
  have hparts := parts_of_isFinite hfinite
  have hleast := hparts.least
  have hle := hparts.le
  have hnear := (holds_neighbourhood_iff hpos _ _).1 (holds_of_nearest? hnearest)
  have hten : (0 : ℚ) < 10 ^ (x.ceilingExponent - i) := by positivity
  have hpointPos : 0 < point := by
    have := pos_of_mul_pos_left (hnear.pos hpos) hten.le
    exact_mod_cast this
  refine ⟨point, x.ceilingExponent - i, hshortest.symm, hnear, hpointPos, ?_⟩
  have hupper := hnear.upper
  cases i with
  | zero =>
    have hgreat : (2 : ℚ) ^ top ≤ 10 ^ (x.ceilingExponent - (0 : Nat) + 2) := by
      apply two_zpow_le_ten_zpow <;> intro _ <;> omega
    rw [zpow_add₀ (by norm_num)] at hgreat
    have hpointLt : (point : ℚ) < 10 ^ (2 : Int) := by
      refine lt_of_mul_lt_mul_right ?_ hten.le
      rw [mul_comm (10 ^ (2 : Int))]
      exact (hupper.trans_lt hlt).trans_le hgreat
    have hpointLt' : point < 100 := by exact_mod_cast hpointLt
    exact ⟨by omega, by omega⟩
  | succ k =>
    have hnone := hfirst k (by omega)
    have hstep : x.ceilingExponent - k = x.ceilingExponent - (k + 1 : Nat) + 1 := by
      push_cast
      ring
    have hcoarse : x.unit / 2 < 10 ^ (x.ceilingExponent - (k + 1 : Nat) + 1) := by
      rw [← hstep]
      by_contra hfine
      exact nearest?_ne_none hpos _ (not_lt.1 hfine) (by simpa [gridPoint?] using hnone)
    constructor
    · have hsignificand : (x.significand : ℚ) + 1 ≤ 2 ^ 53 := by exact_mod_cast hparts.lt
      have hmagnitude := mul_le_mul_of_nonneg_right hsignificand x.unit_pos.le
      rw [zpow_add_one₀ (by norm_num)] at hcoarse
      rw [magnitude_eq_mul_unit] at hupper
      have hpointLt : (point : ℚ) < 200000000000000000 := by
        refine lt_of_mul_lt_mul_right ?_ hten.le
        linarith
      exact_mod_cast hpointLt
    · by_contra hsmall
      have hunit : (2 : ℚ) ^ (-1075 : Int) ≤ x.unit / 2 := by
        rw [unit, div_eq_mul_inv, ← zpow_sub_one₀ two_ne_zero]
        exact zpow_le_zpow_right₀ one_le_two (by omega)
      have hten' : (10 : ℚ) ^ (x.ceilingExponent - (k + 1 : Nat) + 1) ≤ 2 ^ (-1075 : Int) := by
        apply ten_zpow_le_two_zpow <;> intro _ <;> omega
      linarith

end HeadUnit.Binary64
