import HeadUnit.Binary64

/-!
# Finite doubles

An integer of sixty-four bits lies far below the greatest double, so the double nearest to it is
finite.

## Main statements

* `Binary64.isFinite_ofInt` — integers of sixty-four bits have a finite double.
-/

namespace HeadUnit.Binary64

theorem exponentField_negate (x : Binary64) : x.negate.exponentField = x.exponentField := by
  have h : (x.bits ^^^ 0x8000000000000000).toNat / 2 ^ 52 % 2 ^ 11 =
      x.bits.toNat / 2 ^ 52 % 2 ^ 11 := by
    rw [UInt64.toNat_xor, Nat.xor_div_two_pow, Nat.xor_mod_two_pow]
    exact Nat.xor_zero _
  exact h

@[simp] theorem isFinite_negate (x : Binary64) : x.negate.isFinite = x.isFinite := by
  unfold isFinite
  rw [exponentField_negate]

theorem roundHalfEven_le (num den : Nat) : roundHalfEven num den ≤ num / den + 1 := by
  unfold roundHalfEven
  dsimp only
  split <;> omega

/-- Shifted down by its own length less 53, a number keeps at most 54 bits. -/
theorem scaleDown_lt (num : Nat) (shift : Int) (h : (num.log2 : Int) - 53 ≤ shift) :
    (scaleDown num 1 shift).1 / (scaleDown num 1 shift).2 < 0x40000000000000 := by
  have hnum : num < 2 ^ (num.log2 + 1) := Nat.lt_log2_self
  unfold scaleDown
  split
  case isTrue hs =>
    rw [Nat.one_mul]
    apply Nat.div_lt_of_lt_mul
    calc num < 2 ^ (num.log2 + 1) := hnum
      _ ≤ 2 ^ (shift.toNat + 54) := Nat.pow_le_pow_right (by decide) (by omega)
      _ = 2 ^ shift.toNat * 0x40000000000000 := Nat.pow_add ..
  case isFalse hs =>
    rw [Nat.div_one]
    calc num * 2 ^ (-shift).toNat
        < 2 ^ (num.log2 + 1) * 2 ^ (-shift).toNat :=
          Nat.mul_lt_mul_of_pos_right hnum (Nat.two_pow_pos _)
      _ = 2 ^ (num.log2 + 1 + (-shift).toNat) := (Nat.pow_add ..).symm
      _ ≤ 2 ^ 54 := Nat.pow_le_pow_right (by decide) (by omega)
      _ = 0x40000000000000 := rfl

theorem unitExponent_bounds (num : Nat) (h : num < 0x10000000000000000) :
    (num.log2 : Int) - 53 ≤ unitExponent num 1 ∧ unitExponent num 1 ≤ 11 := by
  have hlog : num.log2 < 64 := by
    by_cases h0 : num = 0
    · subst h0
      decide
    · exact (Nat.log2_lt h0).2 h
  have hone : Nat.log2 1 = 0 := by decide
  unfold unitExponent
  rw [hone]
  dsimp only
  split <;> omega

theorem pack_lt (significand : Nat) (exponent : Int) (hs : significand ≤ 0x40000000000000)
    (he : exponent ≤ 11) : pack significand exponent < 2047 * 0x10000000000000 := by
  unfold pack
  split <;> omega

theorem isFinite_of_bits_lt (n : Nat) (h : n < 2047 * 0x10000000000000) :
    (⟨n.toUInt64⟩ : Binary64).isFinite = true := by
  have hn : n.toUInt64.toNat = n := Nat.mod_eq_of_lt (by omega)
  have hne : (⟨n.toUInt64⟩ : Binary64).exponentField ≠ 2047 := by
    unfold exponentField
    rw [hn]
    omega
  exact bne_iff_ne.2 hne

theorem isFinite_ofNat (n : Nat) (h : n < 0x10000000000000000) : (ofNat n).isFinite = true := by
  obtain ⟨hlow, hhigh⟩ := unitExponent_bounds n h
  have hquotient := scaleDown_lt n _ hlow
  have hround := roundHalfEven_le (scaleDown n 1 (unitExponent n 1)).1
    (scaleDown n 1 (unitExponent n 1)).2
  exact isFinite_of_bits_lt _ (pack_lt _ _ (by omega) hhigh)

theorem isFinite_ofInt (n : Int) (h : n.natAbs < 0x10000000000000000) :
    (ofInt n).isFinite = true := by
  unfold ofInt
  split
  · rw [isFinite_negate]
    exact isFinite_ofNat _ h
  · exact isFinite_ofNat _ h

/-- Every signed word has a finite double. -/
@[simp] theorem isFinite_ofInt_toInt (n : Int64) : (ofInt n.toInt).isFinite = true := by
  have hlow := n.le_toInt
  have hhigh := n.toInt_lt
  exact isFinite_ofInt _ (by omega)

end HeadUnit.Binary64
