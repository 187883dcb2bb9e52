import HeadUnit.Catalog
import HeadUnit.Proofs.Registry.Valid
import HeadUnit.Proofs.WireType.RoundTrip

/-!
# The catalog's tables

The telemetry registry and the catalog as a whole pass validation, and the registry's types and
the records are lawful at every version. Reading a name gives the first word that has it, whatever
the renamings of the vocabulary are. So all words come back from their names exactly where the
names are distinct, and the vocabularies of the catalog are distinct at every version.

## Main statements

* `validate_catalog`, `validate_vehicleData` — the tables pass validation.
* `distinctAt_vocabularies` — no two words of the catalog's vocabularies share a name.
* `lawful_vehicleData`, `lawful_records` — the types are lawful.
* `ofWireName?_iff_wireName` — the words that names stand for.
-/

namespace HeadUnit

theorem Vocabulary.validate_eq_ok_iff (t : Vocabulary) :
    t.validate = .ok () ↔ ∀ v, t.DistinctAt v := by
  simp only [validate, List.forM_eq_forM, Except.forM_eq_ok_iff, validateAt_eq_ok_iff,
    Version.mem_all, forall_const]

namespace Catalog

/-! ## The tables pass -/

theorem validate_eq_ok_iff : validate = .ok () ↔ vehicleData.validate = .ok () ∧
    (∀ h ∈ handles, h.keys.validate = .ok ()) ∧
    ∀ t ∈ functions :: vocabularies, t.validate = .ok () := by
  simp only [validate, List.forM_eq_forM, Except.bind_eq_ok_iff, Except.forM_eq_ok_iff,
    List.forall_mem_cons]

theorem validate_catalog : validate = .ok () := by
  decide +kernel

theorem validate_vehicleData : vehicleData.validate = .ok () :=
  (validate_eq_ok_iff.1 validate_catalog).1

/-- The catalog passes validation as a whole, and with it each of its vocabularies. -/
theorem distinctAt_vocabularies : ∀ t ∈ functions :: vocabularies, ∀ v, t.DistinctAt v := by
  obtain ⟨-, -, hvalid⟩ := validate_eq_ok_iff.1 validate_catalog
  exact fun t ht => t.validate_eq_ok_iff.1 (hvalid t ht)

theorem distinctAt_functions : ∀ v, functions.DistinctAt v :=
  distinctAt_vocabularies functions List.mem_cons_self

theorem lawful_vehicleData : ∀ e ∈ vehicleData.entries, e.type.Lawful := by
  decide +kernel

theorem lawful_records : ∀ t ∈ records, t.Lawful := by
  decide +kernel

/-! ## Names of words -/

/-- A name stands at `v` for the first word that has it, and for none if no word does. So every
word is found by its own name exactly if no two words share a name at `v`. Validation accepts the
vocabularies of which this holds at every version, as it does of those of the catalog. -/
theorem ofWireName?_iff_wireName (t : Vocabulary) (v : Version) :
    (∀ s w, t.ofWireName? v s = some w ↔
      t.wireName v w = s ∧ ∀ earlier : t.Word, earlier < w → t.wireName v earlier ≠ s) ∧
    (∀ s, t.ofWireName? v s = none ↔ ∀ w, t.wireName v w ≠ s) ∧
    ((∀ w, t.ofWireName? v (t.wireName v w) = some w) ↔
      ∀ a b, t.wireName v a = t.wireName v b → a = b) ∧
    (t.validate = .ok () ↔ ∀ u a b, t.wireName u a = t.wireName u b → a = b) ∧
    ∀ known ∈ functions :: vocabularies, ∀ u a b,
      known.wireName u a = known.wireName u b → a = b :=
  ⟨fun _ _ => Vocabulary.ofWireName?_eq_some_iff, fun _ => Vocabulary.ofWireName?_eq_none_iff,
    Vocabulary.forall_ofWireName?_wireName_iff, t.validate_eq_ok_iff, distinctAt_vocabularies⟩

/-- Two words exchange their names at versions 3 and 4; from version 5 on the second one hides
behind the first. The range that ends before it begins renames nothing. -/
theorem ofWireName?_iff_wireName_lamp :
    let t : Vocabulary := ⟨"Lamp", [("Low", "LOW"), ("High", "HIGH")],
      [⟨0, .between 4 2, "DIM"⟩, ⟨0, .since 3, "HIGH"⟩, ⟨1, .between 3 4, "LOW"⟩]⟩
    t.ofWireName? .v4 "LOW" = some 1 ∧ t.ofWireName? .v5 "HIGH" = some 0 ∧
      t.ofWireName? .v5 "LOW" = none ∧ t.validate ≠ .ok () ∧ fuelType ∈ functions :: vocabularies ∧
      fuelType.wireName .v5 ⟨0, by decide⟩ ≠ fuelType.wireName .v5 ⟨3, by decide⟩ := by
  intro t
  obtain ⟨hfour, -⟩ := ofWireName?_iff_wireName t .v4
  obtain ⟨hfive, hnone, -, hvalidate, hcatalog⟩ := ofWireName?_iff_wireName t .v5
  have hfuel : fuelType ∈ functions :: vocabularies := by simp [vocabularies]
  refine ⟨(hfour _ _).2 (by decide), (hfive _ _).2 (by decide), (hnone _).2 (by decide), ?_, hfuel,
    fun h => ?_⟩
  · intro h
    exact absurd (hvalidate.1 h .v5 0 1 (by decide)) (by decide)
  · exact absurd (hcatalog _ hfuel _ _ _ h) (by decide)

end Catalog

end HeadUnit
