import HeadUnit.Proofs.Value.RoundTrip
import HeadUnit.Proofs.WireType.RoundTrip

/-!
# Trimmed data

A float without a JSON form does not travel. Alone it is nothing; in a list it is left out, and a
member of a record that is one is missing. All else of a datum stays in its place.

## Main definitions

* `WireType.isNonFinite` — data that are such a float themselves.
* `WireType.trim`, `Layout.trim` — the datum without such floats in its lists and records.

## Main statements

* `WireType.finitePart?_eq` — what is left of a datum is nothing or the trimmed datum.
* `WireType.ofJson_toJson_encode` — the value of a datum comes back from its tree.
* `WireType.decode_encode_eq_some_iff` — only finite data come back as they were.
-/

namespace HeadUnit

/-- The datum is itself an infinite float or a NaN. -/
def WireType.isNonFinite : (t : WireType) → t.Carrier → Bool
  | .float, x => !x.isFinite
  | _, _ => false

mutual

/-- The datum with its lists filtered and its records' members dropped, at every depth. -/
def WireType.trim : (t : WireType) → t.Carrier → t.Carrier
  | .record _ layout, members => layout.trim members
  | .list item, items => (items.filter (!item.isNonFinite ·)).map item.trim
  | _, x => x

def Layout.trim : (l : Layout) → l.Carrier → l.Carrier
  | .nil, _ => ()
  | .cons _ _ type rest, (datum, others) =>
    ((datum.filter (!type.isNonFinite ·)).map type.trim, rest.trim others)

end

mutual

/-- What is left of a datum is nothing if it is such a float, and else the trimmed datum. -/
theorem WireType.finitePart?_eq : ∀ (t : WireType) (x : t.Carrier),
    t.finitePart? x = if t.isNonFinite x then none else some (t.trim x)
  | .bool, _ | .int64, _ | .int32, _ | .uint32, _ | .text, _ | .word _, _ => rfl
  | .float, x => by
    change (if x.isFinite then some x else none) = if !x.isFinite then none else some x
    cases x.isFinite <;> rfl
  | .record _ layout, members => congrArg some (layout.finitePart_eq members)
  | .list item, items => by
    have hitems : items.filterMap item.finitePart? =
        (items.filter (!item.isNonFinite ·)).map item.trim := by
      rw [← List.filterMap_eq_map, List.filterMap_filter]
      refine List.filterMap_congr fun x _ => ?_
      rw [item.finitePart?_eq x]
      cases item.isNonFinite x <;> rfl
    exact congrArg some hitems

theorem Layout.finitePart_eq : ∀ (l : Layout) (members : l.Carrier),
    l.finitePart members = l.trim members
  | .nil, _ => rfl
  | .cons _ _ type rest, (datum, others) => by
    have hdatum : datum.bind type.finitePart? =
        (datum.filter (!type.isNonFinite ·)).map type.trim := by
      cases datum with
      | none => rfl
      | some x =>
        rw [Option.bind_some, type.finitePart?_eq x]
        cases h : type.isNonFinite x <;> simp [Option.filter, h]
    exact Prod.ext hdatum (rest.finitePart_eq others)

end

namespace WireType

variable {t : WireType} {v : Version}

/-- The value of a datum comes back from its tree: it holds no float without a JSON form. -/
theorem ofJson_toJson_encode (v : Version) (x : t.Carrier) :
    Value.ofJson (t.encode v x).toJson = t.encode v x := by
  rw [Value.ofJson_toJson _ (t.wellFormed_encode v x),
    Value.jsonForm_eq_self _ (t.isFinite_encode v x)]

/-- Only finite data come back as they were. -/
theorem decode_encode_eq_some_iff (h : t.LawfulAt v) (x : t.Carrier) :
    t.decode v (t.encode v x) = some x ↔ t.IsFinite x :=
  ⟨t.isFinite_decode v (t.isFinite_encode v x), decode_encode_of_isFinite h⟩

end WireType

end HeadUnit
