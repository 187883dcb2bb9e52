import HeadUnit.KeyTable

/-!
# Valid key tables

Validation compares the bounds of ranges only. Of ranges that are in order, two overlap by their
bounds exactly if they hold a number in common, so validation accepts exactly the tables whose
ranges are in order and hold no number twice.

## Main definitions

* `KeyTable.Valid` — what validation accepts.

## Main statements

* `Range.overlaps_iff` — ranges in order overlap if they hold a number in common.
* `KeyTable.validate_eq_ok_iff` — validation accepts exactly the valid tables.
-/

namespace HeadUnit

namespace Range

variable {r s : Range}

theorem le_greatest (n : UInt8) : n ≤ 255 :=
  UInt8.le_iff_toNat_le.2 (Nat.le_of_lt_succ n.toNat_lt)

theorem isInverted_eq_false_iff :
    r.isInverted = false ↔ ∀ last, r.last = some last → r.first ≤ last := by
  unfold isInverted
  cases r.last <;> simp

theorem first_le_bound (h : r.isInverted = false) : r.first ≤ r.bound := by
  rw [isInverted_eq_false_iff] at h
  unfold bound
  cases hlast : r.last with
  | none => exact le_greatest r.first
  | some last => exact h last hlast

/-- Ranges that are in order overlap exactly if they hold a number in common: the first number of
the one that begins later. -/
theorem overlaps_iff (hr : r.isInverted = false) (hs : s.isInverted = false) :
    r.overlaps s = true ↔ ∃ n, r.holds n = true ∧ s.holds n = true := by
  simp only [overlaps, holds, decide_eq_true_eq]
  constructor
  · rintro ⟨hsr, hrs⟩
    rcases UInt8.le_total r.first s.first with h | h
    · exact ⟨s.first, ⟨h, hrs⟩, UInt8.le_refl _, first_le_bound hs⟩
    · exact ⟨r.first, ⟨UInt8.le_refl _, first_le_bound hr⟩, h, hsr⟩
  · rintro ⟨n, ⟨hrn, hnr⟩, hsn, hns⟩
    exact ⟨UInt8.le_trans hrn hns, UInt8.le_trans hsn hnr⟩

end Range

namespace KeyTable

/-- No range ends before it begins, and no number is in two ranges. -/
structure Valid (t : KeyTable) : Prop where
  inOrder : ∀ o ∈ t.overrides, ∀ last, o.range.last = some last → o.range.first ≤ last
  apart : t.overrides.Pairwise fun o other =>
    ∀ n, ¬ (o.range.holds n = true ∧ other.range.holds n = true)

/-- Each range is compared with the later ones only, which are all pairs. -/
theorem check_eq_ok_iff (initial : String) (overrides : List KeyOverride) :
    check initial overrides = .ok () ↔
      (∀ o ∈ overrides, o.range.isInverted = false) ∧
        overrides.Pairwise fun o other => other.range.overlaps o.range = false := by
  induction overrides with
  | nil => simp [check]
  | cons o rest ih =>
    rw [check, List.forall_mem_cons, List.pairwise_cons]
    cases hinverted : o.range.isInverted with
    | true => simp
    | false =>
      cases hfind : rest.find? (·.range.overlaps o.range) with
      | some other =>
        have hoverlaps : other.range.overlaps o.range = true := by
          simpa using List.find?_some hfind
        refine iff_of_false (by simp) fun ⟨_, hapart, _⟩ => ?_
        rw [hapart other (List.mem_of_find?_eq_some hfind)] at hoverlaps
        cases hoverlaps
      | none =>
        have hapart : ∀ other ∈ rest, other.range.overlaps o.range = false := by
          simpa using hfind
        rw [and_iff_right hapart]
        simpa using ih

theorem validate_eq_ok_iff (t : KeyTable) : t.validate = .ok () ↔ t.Valid := by
  have horder : (∀ o ∈ t.overrides, o.range.isInverted = false) ↔
      ∀ o ∈ t.overrides, ∀ last, o.range.last = some last → o.range.first ≤ last := by
    simp only [Range.isInverted_eq_false_iff]
  have hapart (h : ∀ o ∈ t.overrides, o.range.isInverted = false) :
      t.overrides.Pairwise (fun o other => other.range.overlaps o.range = false) ↔
        t.overrides.Pairwise fun o other =>
          ∀ n, ¬ (o.range.holds n = true ∧ other.range.holds n = true) := by
    refine List.Pairwise.iff_of_mem fun {o other} ho hother => ?_
    rw [← Bool.not_eq_true, Range.overlaps_iff (h other hother) (h o ho), not_exists]
    exact forall_congr' fun n => not_congr and_comm
  rw [validate, check_eq_ok_iff]
  constructor
  · rintro ⟨h, hpairs⟩
    exact ⟨horder.1 h, (hapart h).1 hpairs⟩
  · rintro ⟨h, hpairs⟩
    exact ⟨horder.2 h, (hapart (horder.2 h)).2 hpairs⟩

end KeyTable

end HeadUnit
