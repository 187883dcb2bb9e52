import HeadUnit.Proofs.KeyTable.Valid

/-!
# Look-up in valid key tables

The first override that applies decides. In a valid table no other one applies, so the place of
an override in the table does not matter.

## Main definitions

* `n ∈ r` — the numbers of a range, without a bound in the place of a missing end.
* `KeyTable.applicable` — the overrides that apply at a version.

## Main statements

* `KeyTable.Valid.length_applicable_le_one` — at most one override applies.
* `KeyTable.Valid.resolve_eq_of_perm` — the order of the overrides does not matter.
* `KeyTable.validate_eq_ok_iff_and_resolve_eq` — what validation accepts, and what it gives.
-/

namespace HeadUnit

namespace Range

variable {r : Range} {n : UInt8}

/-- A range holds its first number and the larger ones, up to its end if it has one. -/
instance : Membership UInt8 Range where
  mem r n := r.first ≤ n ∧ ∀ last, r.last = some last → n ≤ last

theorem mem_iff : n ∈ r ↔ r.first ≤ n ∧ ∀ last, r.last = some last → n ≤ last := Iff.rfl

/-- No number is above the bound that stands for a missing end. -/
theorem le_bound_iff : n ≤ r.bound ↔ ∀ last, r.last = some last → n ≤ last := by
  unfold bound
  cases r.last with
  | none => simpa using le_greatest n
  | some last => simp

theorem holds_iff : r.holds n = true ↔ n ∈ r := by
  rw [holds, decide_eq_true_eq, le_bound_iff, mem_iff]

theorem contains_iff {v : Version} : r.contains v = true ↔ v.number ∈ r := holds_iff

end Range

namespace KeyTable

variable {t : KeyTable} {v : Version} {o : KeyOverride}

theorem valid_iff (t : KeyTable) : t.Valid ↔
    (∀ o ∈ t.overrides, ∀ last, o.range.last = some last → o.range.first ≤ last) ∧
      t.overrides.Pairwise fun o other => ¬ ∃ n, n ∈ o.range ∧ n ∈ other.range := by
  simp only [not_exists, ← Range.holds_iff]
  exact ⟨fun h => ⟨h.inOrder, h.apart⟩, fun ⟨horder, hapart⟩ => ⟨horder, hapart⟩⟩

/-! ## Applicable overrides -/

/-- The overrides that apply at `v`, in the order of the table. -/
def applicable (t : KeyTable) (v : Version) : List KeyOverride :=
  t.overrides.filter (·.range.contains v)

theorem mem_applicable_iff : o ∈ t.applicable v ↔ o ∈ t.overrides ∧ v.number ∈ o.range := by
  rw [applicable, List.mem_filter, Range.contains_iff]

theorem resolve_eq (t : KeyTable) (v : Version) :
    t.resolve v = ((t.applicable v).head?.map KeyOverride.key).getD t.initial := by
  rw [applicable, List.head?_filter, resolve]
  cases t.overrides.find? (·.range.contains v) <;> rfl

theorem resolve_of_applicable_eq_nil (h : t.applicable v = []) : t.resolve v = t.initial := by
  rw [resolve_eq, h]
  rfl

theorem resolve_of_applicable_eq_singleton (h : t.applicable v = [o]) : t.resolve v = o.key := by
  rw [resolve_eq, h]
  rfl

/-! ## Valid tables -/

namespace Valid

/-- Two overrides that apply would both hold the version's number. -/
theorem length_applicable_le_one (h : t.Valid) (v : Version) : (t.applicable v).length ≤ 1 := by
  have hapart : (t.applicable v).Pairwise fun o other =>
      ¬ (o.range.holds v.number = true ∧ other.range.holds v.number = true) :=
    (h.apart.imp fun hn => hn v.number).filter _
  match happlicable : t.applicable v with
  | [] | [_] => simp
  | o :: other :: rest =>
    have ho : o ∈ t.applicable v := by simp [happlicable]
    have hother : other ∈ t.applicable v := by simp [happlicable]
    rw [happlicable] at hapart
    refine absurd ⟨?_, ?_⟩ (List.rel_of_pairwise_cons hapart List.mem_cons_self)
    · exact Range.holds_iff.2 (mem_applicable_iff.1 ho).2
    · exact Range.holds_iff.2 (mem_applicable_iff.1 hother).2

theorem resolve_eq_key (h : t.Valid) (ho : o ∈ t.overrides) (hv : v.number ∈ o.range) :
    t.resolve v = o.key := by
  obtain ⟨other, hother⟩ : ∃ other, t.applicable v = [other] :=
    List.length_eq_one_iff.1 (Nat.le_antisymm (h.length_applicable_le_one v)
      (List.length_pos_of_mem (mem_applicable_iff.2 ⟨ho, hv⟩)))
  have heq : o = other := by
    simpa [hother] using mem_applicable_iff.2 ⟨ho, hv⟩
  rw [resolve_of_applicable_eq_singleton hother, heq]

theorem of_perm (h : t.Valid) {overrides : List KeyOverride} (hperm : overrides.Perm t.overrides) :
    (KeyTable.mk t.initial overrides).Valid where
  inOrder o ho := h.inOrder o (hperm.subset ho)
  apart := hperm.symm.pairwise h.apart fun hne n hn => hne n hn.symm

/-- What applies is the same override in every order. -/
theorem resolve_eq_of_perm (h : t.Valid) {overrides : List KeyOverride}
    (hperm : overrides.Perm t.overrides) (v : Version) :
    (KeyTable.mk t.initial overrides).resolve v = t.resolve v := by
  have happlicable : ((KeyTable.mk t.initial overrides).applicable v).Perm (t.applicable v) :=
    hperm.filter _
  have hlength := h.length_applicable_le_one v
  have heq : (KeyTable.mk t.initial overrides).applicable v = t.applicable v := by
    match hlist : t.applicable v with
    | [] => exact (hlist ▸ happlicable).eq_nil
    | [o] => exact List.perm_singleton.1 (hlist ▸ happlicable)
    | _ :: _ :: _ => simp [hlist] at hlength
  rw [resolve_eq, resolve_eq, heq]

end Valid

/-- Validation accepts exactly the tables in which no range ends before it begins and no two
ranges have a number in common. Then at most one override applies at any version, and its key
holds; where none applies, the field's own key does. The order of the overrides does not matter:
the table stays valid, and every version keeps its key. -/
theorem validate_eq_ok_iff_and_resolve_eq (t : KeyTable) :
    (t.validate = .ok () ↔
      (∀ o ∈ t.overrides, ∀ last, o.range.last = some last → o.range.first ≤ last) ∧
        t.overrides.Pairwise fun o other => ¬ ∃ n, n ∈ o.range ∧ n ∈ other.range) ∧
    (t.validate = .ok () → ∀ v : Version,
      (t.overrides.filter (·.range.contains v)).length ≤ 1 ∧
      (∀ o ∈ t.overrides, v.number ∈ o.range → t.resolve v = o.key) ∧
      ((∀ o ∈ t.overrides, v.number ∉ o.range) → t.resolve v = t.initial) ∧
      ∀ overrides, overrides.Perm t.overrides →
        (KeyTable.mk t.initial overrides).validate = .ok () ∧
        (KeyTable.mk t.initial overrides).resolve v = t.resolve v) := by
  refine ⟨(validate_eq_ok_iff t).trans (valid_iff t), fun hok v => ?_⟩
  have ht := (validate_eq_ok_iff t).1 hok
  refine ⟨ht.length_applicable_le_one v, fun o ho hv => ht.resolve_eq_key ho hv, fun hnone => ?_,
    fun overrides hperm => ⟨(validate_eq_ok_iff _).2 (ht.of_perm hperm), ?_⟩⟩
  · refine resolve_of_applicable_eq_nil (List.eq_nil_iff_forall_not_mem.2 fun o ho => ?_)
    obtain ⟨hmem, hv⟩ := mem_applicable_iff.1 ho
    exact hnone o hmem hv
  · exact ht.resolve_eq_of_perm hperm v

/-- Ranges that meet end to end, the last one without an end, in another order. -/
theorem validate_eq_ok_iff_and_resolve_eq_fuelLevel :
    let early : KeyOverride := ⟨.between 2 2, "fuel"⟩
    let middle : KeyOverride := ⟨.between 3 4, "fuelLevel_State"⟩
    let late : KeyOverride := ⟨.since 5, "fuelLevelState"⟩
    let t : KeyTable := ⟨"level", [late, early, middle]⟩
    t.validate = .ok () ∧ [early, middle, late].Perm t.overrides ∧
      (¬ ∃ n, n ∈ late.range ∧ n ∈ middle.range) ∧
      t.resolve .v1 = "level" ∧ t.resolve .v4 = "fuelLevel_State" ∧
      (KeyTable.mk "level" [early, middle, late]).resolve .v5 = "fuelLevelState" := by
  intro early middle late t
  obtain ⟨hiff, hresolve⟩ := validate_eq_ok_iff_and_resolve_eq t
  have ht : t.validate = .ok () := rfl
  have hperm : [early, middle, late].Perm t.overrides := by decide
  have hapart : ¬ ∃ n, n ∈ late.range ∧ n ∈ middle.range := by
    obtain ⟨-, hpairs⟩ := hiff.1 ht
    exact List.rel_of_pairwise_cons hpairs (by simp)
  obtain ⟨-, -, hinitial, -⟩ := hresolve ht .v1
  obtain ⟨-, hkey, -⟩ := hresolve ht .v4
  obtain ⟨-, hlate, -, horder⟩ := hresolve ht .v5
  have hnone : ∀ o ∈ t.overrides, Version.v1.number ∉ o.range := by
    simp only [← Range.contains_iff]
    decide
  have hmiddle : Version.v4.number ∈ middle.range := Range.contains_iff.1 (by decide)
  have hopen : Version.v5.number ∈ late.range := Range.contains_iff.1 (by decide)
  refine ⟨ht, hperm, hapart, hinitial hnone, hkey middle (by simp [t]) hmiddle, ?_⟩
  exact (horder _ hperm).2.trans (hlate late (by simp [t]) hopen)

end KeyTable

end HeadUnit
