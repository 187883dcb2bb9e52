import HeadUnit.Proofs.KeyTable.Valid
import HeadUnit.Proofs.Registry.Valid

/-!
# Look-up in valid registries

A valid registry is a table in two ways: by identifier, and at every version by key. Each entry
is found under its own identifier and under its own key, so the two look-ups are inverse.

## Main statements

* `Registry.Valid.entryForKey?_eq_some_iff_resolveKey?` — a key stands for the entry whose
  identifier stands for the key.
* `Registry.validate_eq_ok_iff_and_lookup` — what validation accepts, and what it gives.
-/

namespace HeadUnit

namespace Registry

variable {r : Registry} {e : Entry}

namespace Valid

theorem entry?_id (h : r.Valid) (he : e ∈ r.entries) : r.entry? e.id = some e :=
  h.entry?_eq_some_iff.2 ⟨he, rfl⟩

theorem resolveKey?_id (h : r.Valid) (he : e ∈ r.entries) (v : Version) :
    r.resolveKey? e.id v = some (e.key v) := by
  rw [resolveKey?, h.entry?_id he]
  rfl

theorem entryForKey?_key (h : r.Valid) (he : e ∈ r.entries) (v : Version) :
    r.entryForKey? (e.key v) v = some e :=
  h.entryForKey?_eq_some_iff.2 ⟨he, rfl⟩

/-- A key stands for the entry whose identifier stands for the key. -/
theorem entryForKey?_eq_some_iff_resolveKey? (h : r.Valid) (he : e ∈ r.entries) (key : String)
    (v : Version) : r.entryForKey? key v = some e ↔ r.resolveKey? e.id v = some key := by
  rw [h.entryForKey?_eq_some_iff, h.resolveKey?_id he, Option.some_inj]
  exact and_iff_right he

end Valid

theorem valid_iff (r : Registry) : r.Valid ↔
    (r.entries.map fun e => e.id).Nodup ∧ (∀ e ∈ r.entries, e.keys.Valid) ∧
      ∀ v, (r.entries.map (·.key v)).Nodup := by
  simp only [← KeyTable.validate_eq_ok_iff]
  exact ⟨fun h => ⟨h.ids, h.tables, h.keys⟩, fun ⟨hids, htables, hkeys⟩ => ⟨hids, htables, hkeys⟩⟩

/-- Validation accepts exactly the registries in which no identifier comes twice, no key table has
a range that ends before it begins or two ranges with a number in common, and no key comes twice
at any version. Then every entry is what its identifier and, at every version, its key stand for,
and looking up a key undoes looking up an identifier. -/
theorem validate_eq_ok_iff_and_lookup (r : Registry) :
    (r.validate = .ok () ↔
      (r.entries.map fun e => e.id).Nodup ∧ (∀ e ∈ r.entries, e.keys.Valid) ∧
        ∀ v, (r.entries.map (·.key v)).Nodup) ∧
    (r.validate = .ok () → ∀ v, ∀ e ∈ r.entries,
      r.entry? e.id = some e ∧ r.resolveKey? e.id v = some (e.key v) ∧
        r.entryForKey? (e.key v) v = some e ∧
        ∀ key, r.entryForKey? key v = some e ↔ r.resolveKey? e.id v = some key) := by
  refine ⟨(validate_eq_ok_iff r).trans (valid_iff r), fun hr v e he => ?_⟩
  have hvalid := (validate_eq_ok_iff r).1 hr
  exact ⟨hvalid.entry?_id he, hvalid.resolveKey?_id he v, hvalid.entryForKey?_key he v,
    fun key => hvalid.entryForKey?_eq_some_iff_resolveKey? he key v⟩

/-- Two fields exchange their keys for a while: at each version a key finds the one that has it. -/
theorem validate_eq_ok_iff_and_lookup_exchange :
    let left : Entry := ⟨⟨"left", ⟨"a", [⟨.between 2 3, "b"⟩, ⟨.since 5, "c"⟩]⟩⟩, .int64⟩
    let right : Entry := ⟨⟨"right", ⟨"b", [⟨.between 2 3, "a"⟩]⟩⟩, .text⟩
    let r : Registry := ⟨"exchange", [left, right]⟩
    r.validate = .ok () ∧ left.keys.Valid ∧ right.keys.Valid ∧
      r.entryForKey? "a" .v1 = some left ∧ r.entryForKey? "a" .v3 = some right ∧
      r.entryForKey? "a" .v5 ≠ some right := by
  intro left right r
  have hr : r.validate = .ok () := by decide
  obtain ⟨hiff, hlookup⟩ := validate_eq_ok_iff_and_lookup r
  obtain ⟨-, htables, -⟩ := hiff.1 hr
  have hleft : left ∈ r.entries := by simp [r]
  have hright : right ∈ r.entries := by simp [r]
  obtain ⟨-, -, hleftKey, -⟩ := hlookup hr .v1 left hleft
  obtain ⟨-, -, hrightKey, -⟩ := hlookup hr .v3 right hright
  obtain ⟨-, -, -, hinverse⟩ := hlookup hr .v5 right hright
  refine ⟨hr, htables left hleft, htables right hright, hleftKey, hrightKey, fun h => ?_⟩
  exact absurd ((hinverse "a").1 h) (by decide)

end Registry

end HeadUnit
