import HeadUnit.Members

/-!
# Ascending members

Members whose keys ascend are a map: look-up and membership say the same, and two maps with the
same look-up are the same list.

## Main statements

* `Members.ascending_insert`, `Members.ascending_erase` — changes keep the order.
* `Members.get?_eq_some_iff` — look-up finds exactly the members.
* `Members.get?_eq_of_perm` — look-up does not depend on the order, where no key comes twice.
* `Members.eq_of_get?_eq` — equal look-up, equal members.
-/

namespace HeadUnit.Members

variable {α : Type} {ms ns : Members α}

@[simp] theorem keys_nil : keys ([] : Members α) = [] := rfl

@[simp] theorem keys_cons (m : String × α) (ms : Members α) : keys (m :: ms) = m.1 :: keys ms := rfl

@[simp] theorem keys_append (ms ns : Members α) : keys (ms ++ ns) = keys ms ++ keys ns :=
  List.map_append

theorem mem_keys_of_mem {m : String × α} (h : m ∈ ms) : m.1 ∈ keys ms :=
  List.mem_map_of_mem h

@[simp] theorem ascending_nil : Ascending ([] : Members α) := List.Pairwise.nil

@[simp] theorem ascending_cons (m : String × α) (ms : Members α) :
    Ascending (m :: ms) ↔ (∀ k ∈ keys ms, m.1 < k) ∧ Ascending ms :=
  List.pairwise_cons

theorem Ascending.pairwise (h : Ascending ms) : ms.Pairwise fun m n => m.1 < n.1 :=
  List.pairwise_map.1 h

theorem Ascending.nodup_keys (h : Ascending ms) : (keys ms).Nodup :=
  List.Pairwise.imp (fun hlt => String.ne_of_lt hlt) h

theorem Ascending.nodup (h : Ascending ms) : ms.Nodup := by
  apply h.pairwise.imp
  rintro m _ hlt rfl
  exact String.lt_irrefl m.1 hlt

theorem ascending_append :
    Ascending (ms ++ ns) ↔ Ascending ms ∧ Ascending ns ∧ ∀ j ∈ keys ms, ∀ k ∈ keys ns, j < k := by
  unfold Ascending
  rw [keys_append, List.pairwise_append]

/-! ## Keys and look-up -/

theorem get?_isSome_iff (key : String) (ms : Members α) :
    (get? key ms).isSome ↔ key ∈ keys ms := by
  induction ms with
  | nil => simp
  | cons m rest ih =>
    obtain ⟨k, v⟩ := m
    by_cases hk : k = key
    · simp [hk]
    · simp [hk, Ne.symm hk, ih]

theorem get?_eq_none_iff (key : String) (ms : Members α) :
    get? key ms = none ↔ key ∉ keys ms := by
  rw [← get?_isSome_iff, Option.not_isSome_iff_eq_none]

theorem mem_of_get? {key : String} {v : α} (h : get? key ms = some v) : (key, v) ∈ ms := by
  induction ms with
  | nil => cases h
  | cons m rest ih =>
    obtain ⟨k, w⟩ := m
    by_cases hk : k = key
    · simp_all
    · rw [get?_cons, if_neg hk] at h
      exact List.mem_cons_of_mem _ (ih h)

theorem get?_filter (keep : String → Bool) (key : String) (ms : Members α) :
    get? key (ms.filter fun m => keep m.1) = if keep key then get? key ms else none := by
  induction ms with
  | nil => simp
  | cons m rest ih =>
    obtain ⟨k, value⟩ := m
    by_cases hk : k = key
    · subst hk
      by_cases hkeep : keep k <;> simp [hkeep, ih]
    · by_cases hkeep : keep k <;> simp [hkeep, hk, ih]

theorem get?_map {β : Type} (f : α → β) (key : String) (ms : Members α) :
    get? key (ms.map fun m => (m.1, f m.2)) = (get? key ms).map f := by
  induction ms with
  | nil => rfl
  | cons m rest ih =>
    obtain ⟨k, value⟩ := m
    by_cases hk : k = key <;> simp [hk, ih]

/-- Where no key comes twice, dropping members by their values drops them from look-up. -/
theorem get?_filter_value (h : (keys ms).Nodup) (keep : α → Bool) (key : String) :
    get? key (ms.filter fun m => keep m.2) = (get? key ms).filter keep := by
  induction ms with
  | nil => rfl
  | cons m rest ih =>
    obtain ⟨k, value⟩ := m
    obtain ⟨hnot, hrest⟩ := List.nodup_cons.1 h
    by_cases hk : k = key
    · subst hk
      have hnone : get? k rest = none := (get?_eq_none_iff k rest).2 hnot
      by_cases hkeep : keep value <;> simp [Option.filter, hkeep, ih hrest, hnone]
    · by_cases hkeep : keep value <;> simp [hkeep, hk, ih hrest]

/-- Where no key comes twice, every member can be looked up. -/
theorem get?_eq_some_iff_of_nodup (h : (keys ms).Nodup) {key : String} {v : α} :
    get? key ms = some v ↔ (key, v) ∈ ms := by
  refine ⟨mem_of_get?, fun hm => ?_⟩
  induction ms with
  | nil => cases hm
  | cons m rest ih =>
    obtain ⟨k, w⟩ := m
    obtain ⟨hnot, hrest⟩ := List.nodup_cons.1 h
    rcases List.mem_cons.1 hm with heq | hm
    · cases heq
      exact if_pos rfl
    · have hkey : key ∈ keys rest := mem_keys_of_mem hm
      have hne : k ≠ key := fun he => hnot (he ▸ hkey)
      rw [get?_cons, if_neg hne]
      exact ih hrest hm

theorem get?_eq_some_iff (h : Ascending ms) {key : String} {v : α} :
    get? key ms = some v ↔ (key, v) ∈ ms :=
  get?_eq_some_iff_of_nodup h.nodup_keys

/-- Look-up does not depend on the order of the members, where no key comes twice. -/
theorem get?_eq_of_perm (h : ms.Perm ns) (hn : (keys ns).Nodup) (key : String) :
    get? key ms = get? key ns := by
  have hm : (keys ms).Nodup := (h.map Prod.fst).nodup_iff.2 hn
  apply Option.ext
  intro v
  rw [get?_eq_some_iff_of_nodup hm, get?_eq_some_iff_of_nodup hn, h.mem_iff]

/-! ## Changes keep the order -/

theorem mem_keys_insert {key other : String} {value : α} :
    other ∈ keys (insert key value ms) ↔ other = key ∨ other ∈ keys ms := by
  simp only [← get?_isSome_iff, get?_insert]
  by_cases h : key = other
  · simp [h]
  · simp [h, Ne.symm h]

theorem ascending_insert (key : String) (value : α) (h : Ascending ms) :
    Ascending (insert key value ms) := by
  induction ms with
  | nil => simp [insert]
  | cons m rest ih =>
    obtain ⟨k, v⟩ := m
    obtain ⟨hlt, hrest⟩ := (ascending_cons _ _).1 h
    unfold insert
    split
    case isTrue hk =>
      refine (ascending_cons _ _).2 ⟨fun j hj => ?_, h⟩
      rcases List.mem_cons.1 hj with rfl | hj
      · exact hk
      · exact String.lt_trans hk (hlt j hj)
    case isFalse hk =>
      split
      case isTrue he => exact (ascending_cons _ _).2 ⟨fun j hj => he ▸ hlt j hj, hrest⟩
      case isFalse he =>
        refine (ascending_cons _ _).2 ⟨fun j hj => ?_, ih hrest⟩
        rcases mem_keys_insert.1 hj with rfl | hj
        · grind
        · exact hlt j hj

theorem ascending_erase (key : String) (h : Ascending ms) : Ascending (erase key ms) :=
  h.sublist (List.filter_sublist.map _)

/-- A key above all others goes to the end. -/
theorem insert_eq_append {key : String} (value : α) (h : ∀ k ∈ keys ms, k < key) :
    insert key value ms = ms ++ [(key, value)] := by
  induction ms with
  | nil => rfl
  | cons m rest ih =>
    obtain ⟨k, v⟩ := m
    have hk : k < key := h k (by simp)
    have hne : key ≠ k := fun he => String.lt_irrefl k (he ▸ hk)
    rw [insert, if_neg (String.lt_asymm hk), if_neg hne, ih fun j hj => h j (by simp [hj])]
    rfl

/-! ## Sizes -/

theorem length_insert_le (key : String) (value : α) (ms : Members α) :
    (insert key value ms).length ≤ ms.length + 1 := by
  fun_induction insert key value ms <;> simp_all

theorem length_erase_le (key : String) (ms : Members α) : (erase key ms).length ≤ ms.length :=
  List.length_filter_le _ ms

/-! ## Extensionality -/

theorem eq_of_get?_eq (hm : Ascending ms) (hn : Ascending ns)
    (h : ∀ key, get? key ms = get? key ns) : ms = ns := by
  have hmem : ∀ m, m ∈ ms ↔ m ∈ ns := by
    rintro ⟨k, v⟩
    rw [← get?_eq_some_iff hm, ← get?_eq_some_iff hn, h]
  refine List.Perm.eq_of_pairwise (fun a b _ _ hab hba => ?_) hm.pairwise hn.pairwise ?_
  · exact absurd hba (String.lt_asymm hab)
  · exact (List.perm_ext_iff_of_nodup hm.nodup hn.nodup).2 hmem

end HeadUnit.Members
