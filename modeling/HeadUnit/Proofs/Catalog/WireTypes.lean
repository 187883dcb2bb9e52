import HeadUnit.Proofs.Catalog.Tables
import HeadUnit.Proofs.WireType.Routes
import HeadUnit.Proofs.WireType.Trim

/-!
# Wire types of the catalog

Fields hold scalars, words of vocabularies, records of the catalog, and lists of these to any
depth. All of these types are lawful where their vocabularies have distinct names. So their data
come back from the wire but for the floats without a JSON form, and their values may be carried
over any versions.

## Main definitions

* `IsType` — the types that the catalog's fields are made of.

## Main statements

* `decode_encode_eq_trim` — data at one version, as values and as trees.
* `carry_eq_transcode` — values over several versions.
-/

namespace HeadUnit.Catalog

variable {t : WireType} {v : Version} {e : Entry}

/-- Scalars, words of vocabularies with `p`, records of the catalog, and lists of such types. -/
inductive IsType (p : Vocabulary → Prop) : WireType → Prop where
  | bool : IsType p .bool
  | int64 : IsType p .int64
  | int32 : IsType p .int32
  | uint32 : IsType p .uint32
  | float : IsType p .float
  | text : IsType p .text
  | word {table : Vocabulary} (h : p table) : IsType p (.word table)
  | record {t : WireType} (h : t ∈ records) : IsType p t
  | list {item : WireType} (h : IsType p item) : IsType p (.list item)

/-- The records are lawful at every version, so only the vocabularies of a type decide. -/
theorem IsType.lawfulAt (h : IsType (·.DistinctAt v) t) : t.LawfulAt v := by
  induction h with
  | word h => exact h
  | record h => exact lawful_records _ h v
  | list _ ih => exact ih
  | _ => trivial

theorem IsType.mono {p q : Vocabulary → Prop} (hpq : ∀ table, p table → q table)
    (h : IsType p t) : IsType q t := by
  induction h with
  | bool => exact .bool
  | int64 => exact .int64
  | int32 => exact .int32
  | uint32 => exact .uint32
  | float => exact .float
  | text => exact .text
  | word h => exact .word (hpq _ h)
  | record h => exact .record h
  | list _ ih => exact .list ih

theorem IsType.lawful (h : IsType (fun table => ∀ v, table.DistinctAt v) t) : t.Lawful :=
  fun v => (h.mono fun _ hdistinct => hdistinct v).lawfulAt

/-- A datum that is a float without a JSON form does not come back. Any other comes back trimmed:
as it was but for the members and the items that are such floats, which are missing. It makes no
difference whether the value goes through a tree, and exactly the finite data come back as they
were. -/
theorem decode_encode_eq_trim (ht : IsType (·.DistinctAt v) t) (x : t.Carrier) :
    t.decode v (t.encode v x) = (if t.isNonFinite x then none else some (t.trim x)) ∧
    t.decode v (.ofJson (t.encode v x).toJson) = t.decode v (t.encode v x) ∧
    (t.decode v (t.encode v x) = some x ↔ t.IsFinite x) := by
  have hlawful := ht.lawfulAt
  refine ⟨?_, ?_, WireType.decode_encode_eq_some_iff hlawful x⟩
  · rw [t.decode_encode v x hlawful, t.finitePart?_eq x]
  · rw [WireType.ofJson_toJson_encode v x]

/-- A fuel with a NaN for its range loses the range, and a list of floats its infinity. -/
theorem decode_encode_eq_trim_fuelRange :
    let nan : Binary64 := ⟨0x7ff8000000000000⟩
    let infinity : Binary64 := ⟨0x7ff0000000000000⟩
    IsType (·.DistinctAt .v3) (.list fuelRange) ∧
      (WireType.list fuelRange).decode .v3 ((WireType.list fuelRange).encode .v3
        [(some ⟨0, by decide⟩, some nan, ()), (none, some .zero, ())]) =
          some [(some ⟨0, by decide⟩, none, ()), (none, some .zero, ())] ∧
      (WireType.list (.list .float)).decode .v3 (.ofJson ((WireType.list (.list .float)).encode .v3
        [[infinity, .zero], [nan]]).toJson) = some [[.zero], []] := by
  intro nan infinity
  have hrecord : IsType (·.DistinctAt .v3) (.list fuelRange) := .list (.record (by simp [records]))
  have hlist : IsType (·.DistinctAt .v3) (.list (.list .float)) := .list (.list .float)
  obtain ⟨hfuel, -⟩ := decode_encode_eq_trim hrecord
    [(some ⟨0, by decide⟩, some nan, ()), (none, some .zero, ())]
  obtain ⟨hfloats, htree, -⟩ := decode_encode_eq_trim hlist [[infinity, .zero], [nan]]
  refine ⟨hrecord, hfuel.trans ?_, (htree.trans hfloats).trans ?_⟩
  · cbv
  · cbv

/-- A value without infinite floats and NaNs, as every tree's value is, may be carried over any
versions on its way to the last: the outcome is the same as without them, also where there is
none. So what a field resolves to resolves to itself. -/
theorem carry_eq_transcode (he : IsType (fun table => ∀ v, table.DistinctAt v) e.type) :
    (∀ json, (Value.ofJson json).IsFinite) ∧
    ∀ raw : Value, raw.IsFinite →
      (∀ u v w, (e.transcode raw u v).bind (e.transcode · v w) = e.transcode raw u w) ∧
      (∀ u stops w, e.type.carry u (stops ++ [w]) raw = e.transcode raw u w) ∧
      ∀ v value, e.resolve raw v = some value → e.resolve value v = some value := by
  refine ⟨Value.isFinite_ofJson, fun raw hraw => ⟨fun u v w => ?_, fun u stops w => ?_, ?_⟩⟩
  · exact WireType.transcode_transcode u (he.lawful v) hraw
  · exact WireType.carry_append_singleton he.lawful u stops w hraw
  · intro v value hvalue
    have htwice := WireType.transcode_transcode (w := v) v (he.lawful v) hraw
    rw [Entry.resolve] at hvalue
    rwa [hvalue, Option.bind_some] at htwice

/-- States of the wipers with a word that was renamed, next to items that are none. -/
theorem carry_eq_transcode_wiperStatus :
    let e : Entry := ⟨⟨"states", .fixed "states"⟩, .list (.word wiperStatus)⟩
    let raw : Value := .ofJson (.array [.string "COURTESYWIPE", .null, .string "HAIL", .bool true])
    IsType (fun table => ∀ v, table.DistinctAt v) e.type ∧ raw.IsFinite ∧
      (e.transcode raw .v4 .v5).bind (e.transcode · .v5 .v1) =
        some (.list [.text "COURTESYWIPE"]) ∧
      e.type.carry .v4 [.v5, .v2, .v5] raw = some (.list [.text "COURTESY_WIPE"]) := by
  intro e raw
  have he : IsType (fun table => ∀ v, table.DistinctAt v) e.type :=
    .list (.word (by decide +kernel))
  obtain ⟨hfinite, hcarry⟩ := carry_eq_transcode he
  have hraw : raw.IsFinite := hfinite _
  obtain ⟨htwo, hroute, -⟩ := hcarry raw hraw
  refine ⟨he, hraw, (htwo .v4 .v5 .v1).trans ?_, (hroute .v4 [.v5, .v2] .v5).trans ?_⟩
  · rfl
  · rfl

end HeadUnit.Catalog
