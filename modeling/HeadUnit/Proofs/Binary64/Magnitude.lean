import HeadUnit.Proofs.Binary64.Finite
import Mathlib.Algebra.Order.Field.Power
import Mathlib.Data.Rat.Cast.Order
import Mathlib.Tactic.Linarith
import Mathlib.Tactic.Positivity
import Mathlib.Tactic.Ring

/-!
# Magnitudes of doubles

The magnitude of a finite double is its significand times a power of two. A bit pattern that is
packed from a significand and an exponent has the magnitude of the two, also where a significand
of fifty-four bits carries into the exponent.

## Main definitions

* `Binary64.magnitude`, `Binary64.unit` — the magnitude, and what its last place is worth.
* `Binary64.Parts` — the significands and exponents of finite doubles.

## Main statements

* `Binary64.magnitude_pack` — the magnitude of a packed bit pattern.
* `Binary64.pack_significand_exponent` — a double from its parts.
-/

namespace HeadUnit.Binary64

/-- The magnitude of a finite double. -/
def magnitude (x : Binary64) : ℚ :=
  x.significand * 2 ^ x.exponent

/-- What the last place of a finite double is worth. -/
def unit (x : Binary64) : ℚ :=
  2 ^ x.exponent

theorem unit_pos (x : Binary64) : 0 < x.unit := by
  unfold unit
  positivity

theorem magnitude_eq_mul_unit (x : Binary64) : x.magnitude = x.significand * x.unit := rfl

theorem magnitude_nonneg (x : Binary64) : 0 ≤ x.magnitude := by
  unfold magnitude
  positivity

theorem magnitude_zero : zero.magnitude = 0 := by
  simp [magnitude, significand, zero, exponentField, fractionField]

/-! ## Bit patterns -/

/-- The parts of a magnitude that a bit pattern can hold. -/
structure Parts (significand : Nat) (exponent : Int) : Prop where
  lt : significand < 0x20000000000000
  least : -1074 ≤ exponent
  le : exponent ≤ 971
  normal : -1074 < exponent → 0x10000000000000 ≤ significand

theorem parts_of_isFinite {x : Binary64} (h : x.isFinite = true) :
    Parts x.significand x.exponent := by
  have hfield : x.exponentField ≠ 2047 := bne_iff_ne.1 h
  have hlt : x.exponentField < 2048 := Nat.mod_lt _ (by decide)
  have hfraction : x.fractionField < 0x10000000000000 := Nat.mod_lt _ (by decide)
  by_cases hzero : x.exponentField = 0
  · constructor <;> simp only [significand, exponent, if_pos hzero] <;> omega
  · constructor <;> simp only [significand, exponent, if_neg hzero] <;> omega

/-- The bits of a double without sign are packed from its parts. -/
theorem pack_significand_exponent {x : Binary64} (h : x.isFinite = true)
    (hsign : x.isNegative = false) : pack x.significand x.exponent = x.bits.toNat := by
  have hfield : x.exponentField ≠ 2047 := bne_iff_ne.1 h
  have hbits : x.bits.toNat < 0x8000000000000000 := by simpa [isNegative] using hsign
  unfold significand exponent exponentField fractionField at *
  unfold pack
  split <;> split <;> omega

theorem magnitude_of_lt {n : Nat} (h : n < 0x10000000000000) :
    magnitude ⟨n.toUInt64⟩ = n * 2 ^ (-1074 : Int) := by
  have hn : n.toUInt64.toNat = n := Nat.mod_eq_of_lt (by omega)
  have hfield : (⟨n.toUInt64⟩ : Binary64).exponentField = 0 := by
    unfold exponentField
    rw [hn]
    omega
  have hfraction : (⟨n.toUInt64⟩ : Binary64).fractionField = n := by
    unfold fractionField
    rw [hn]
    omega
  rw [magnitude, significand, exponent, if_pos hfield, if_pos hfield, hfraction]

theorem magnitude_of_le {significand field : Nat} (hlow : 0x10000000000000 ≤ significand)
    (hhigh : significand < 0x20000000000000) (hfield : field < 2046) :
    magnitude ⟨(field * 0x10000000000000 + significand).toUInt64⟩ =
      significand * 2 ^ ((field : Int) - 1074) := by
  obtain ⟨n, hdef⟩ : ∃ n, n = field * 0x10000000000000 + significand := ⟨_, rfl⟩
  rw [← hdef]
  have hn : n.toUInt64.toNat = n := Nat.mod_eq_of_lt (by omega)
  have hexponent : (⟨n.toUInt64⟩ : Binary64).exponentField = field + 1 := by
    unfold exponentField
    rw [hn]
    omega
  have hfraction : 0x10000000000000 + (⟨n.toUInt64⟩ : Binary64).fractionField = significand := by
    unfold fractionField
    rw [hn]
    omega
  rw [magnitude, Binary64.significand, exponent, hexponent, if_neg (by omega), if_neg (by omega),
    hfraction]
  congr 2
  omega

/-- A significand of at most fifty-three bits, or the carry above them, is packed exactly unless it
is too large. -/
theorem magnitude_pack {significand : Nat} {e : Int} (hle : significand ≤ 0x20000000000000)
    (hleast : -1074 ≤ e) (hnormal : -1074 < e → 0x10000000000000 ≤ significand)
    (hfinite : pack significand e < 2047 * 0x10000000000000) :
    magnitude ⟨(pack significand e).toUInt64⟩ = significand * 2 ^ e := by
  unfold pack at hfinite ⊢
  split at hfinite
  case isTrue h =>
    obtain rfl : e = -1074 := by omega
    rw [if_pos h, magnitude_of_lt h]
  case isFalse h =>
    obtain ⟨field, rfl⟩ : ∃ field : Nat, e = field - 1074 := ⟨(e + 1074).toNat, by omega⟩
    have htoNat : ((field : Int) - 1074 + 1074).toNat = field := by omega
    rw [htoNat] at hfinite
    rw [if_neg h, htoNat, min_eq_left (by omega)]
    by_cases hcarry : significand = 0x20000000000000
    · subst hcarry
      have hcarried := @magnitude_of_le 0x10000000000000 (field + 1) (by omega) (by omega)
        (by omega)
      have hbits : field * 0x10000000000000 + 0x20000000000000 =
          (field + 1) * 0x10000000000000 + 0x10000000000000 := by omega
      rw [hbits, hcarried]
      push_cast
      rw [add_sub_right_comm, zpow_add_one₀ two_ne_zero]
      ring
    · exact magnitude_of_le (by omega) (by omega) (by omega)

theorem isNegative_of_bits_lt {n : Nat} (h : n < 2047 * 0x10000000000000) :
    (⟨n.toUInt64⟩ : Binary64).isNegative = false := by
  have hn : n.toUInt64.toNat = n := Nat.mod_eq_of_lt (by omega)
  unfold isNegative
  rw [hn, decide_eq_false_iff_not]
  omega

/-! ## Signs -/

theorem fractionField_negate (x : Binary64) : x.negate.fractionField = x.fractionField := by
  have h : (x.bits ^^^ 0x8000000000000000).toNat % 2 ^ 52 = x.bits.toNat % 2 ^ 52 := by
    rw [UInt64.toNat_xor, Nat.xor_mod_two_pow]
    exact Nat.xor_zero _
  exact h

@[simp] theorem significand_negate (x : Binary64) : x.negate.significand = x.significand := by
  simp only [significand, exponentField_negate, fractionField_negate]

@[simp] theorem exponent_negate (x : Binary64) : x.negate.exponent = x.exponent := by
  simp only [exponent, exponentField_negate]

@[simp] theorem magnitude_negate (x : Binary64) : x.negate.magnitude = x.magnitude := by
  rw [magnitude, significand_negate, exponent_negate, magnitude]

@[simp] theorem isNegative_negate (x : Binary64) : x.negate.isNegative = !x.isNegative := by
  have hxor : (x.bits ^^^ 0x8000000000000000).toNat / 2 ^ 63 = (x.bits.toNat / 2 ^ 63) ^^^ 1 := by
    rw [UInt64.toNat_xor, Nat.xor_div_two_pow]
    rfl
  have hlt : x.bits.toNat < 2 ^ 64 := x.bits.toNat_lt
  have hhigh : ∀ n : Nat, 0x8000000000000000 ≤ n ↔ n / 2 ^ 63 ≠ 0 := fun n => by omega
  unfold isNegative negate
  simp only [hhigh, hxor]
  obtain h | h : x.bits.toNat / 2 ^ 63 = 0 ∨ x.bits.toNat / 2 ^ 63 = 1 := by omega
  all_goals
    rw [h]
    decide

/-- Taking the sign away twice changes nothing. -/
@[simp] theorem negate_negate (x : Binary64) : x.negate.negate = x := by
  unfold negate
  rw [UInt64.xor_assoc, UInt64.xor_self, UInt64.xor_zero]

end HeadUnit.Binary64
