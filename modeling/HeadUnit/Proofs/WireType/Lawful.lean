import HeadUnit.Proofs.Value.WellFormed
import HeadUnit.Proofs.Vocabulary.Distinct
import HeadUnit.WireType
import Mathlib.Data.List.Basic

/-!
# Lawful wire types and finite data

A type is lawful at a version if its data can be told apart there: the words of each vocabulary
have names of their own, and so have the members of each record keys. A layout could give two
members one key, and then one of them would be lost on the wire. Data are finite if no float in
them is infinite or a NaN.

## Main definitions

* `WireType.LawfulAt`, `WireType.Lawful` — names and keys of their own, at a version or at all.
* `WireType.IsFinite` — data without infinite floats and NaNs.
* `WireType.finitePart?` — the datum without the floats that have no JSON form.

## Main statements

* `WireType.isFinite_decode` — finite values hold finite data.
* `WireType.wellFormed_encode`, `WireType.isFinite_encode` — the values of data are well-formed
  and finite.
-/

namespace HeadUnit

/-- The keys of a layout's members at `v`. -/
def Layout.keys (v : Version) : Layout → List String
  | .nil => []
  | .cons _ handle _ rest => handle.key v :: rest.keys v

mutual

/-- Words have distinct names at `v`, and the members of a record distinct keys. -/
def WireType.LawfulAt (v : Version) : WireType → Prop
  | .word table => table.DistinctAt v
  | .record _ layout => layout.LawfulAt v
  | .list item => item.LawfulAt v
  | _ => True

def Layout.LawfulAt (v : Version) : Layout → Prop
  | .nil => True
  | .cons _ handle type rest =>
    (handle.key v ∉ rest.keys v ∧ type.LawfulAt v) ∧ rest.LawfulAt v

end

/-- Names and keys are distinct at every version. -/
def WireType.Lawful (t : WireType) : Prop :=
  ∀ v, t.LawfulAt v

mutual

def WireType.decLawfulAt (v : Version) : (t : WireType) → Decidable (t.LawfulAt v)
  | .bool | .int64 | .int32 | .uint32 | .float | .text => inferInstanceAs (Decidable True)
  | .word table => inferInstanceAs (Decidable (table.DistinctAt v))
  | .record _ layout => layout.decLawfulAt v
  | .list item => item.decLawfulAt v

def Layout.decLawfulAt (v : Version) : (l : Layout) → Decidable (l.LawfulAt v)
  | .nil => inferInstanceAs (Decidable True)
  | .cons _ handle type rest =>
    have := type.decLawfulAt v
    have := rest.decLawfulAt v
    inferInstanceAs (Decidable ((handle.key v ∉ rest.keys v ∧ type.LawfulAt v) ∧ rest.LawfulAt v))

end

instance (v : Version) (t : WireType) : Decidable (t.LawfulAt v) := t.decLawfulAt v

instance (v : Version) (l : Layout) : Decidable (l.LawfulAt v) := l.decLawfulAt v

instance (t : WireType) : Decidable t.Lawful := inferInstanceAs (Decidable (∀ v, t.LawfulAt v))

/-! ## Finite data -/

mutual

/-- No float of the datum is infinite or a NaN. -/
def WireType.IsFinite : (t : WireType) → t.Carrier → Prop
  | .float, x => x.isFinite = true
  | .record _ layout, members => layout.IsFinite members
  | .list item, items => ∀ x ∈ items, item.IsFinite x
  | _, _ => True

def Layout.IsFinite : (l : Layout) → l.Carrier → Prop
  | .nil, _ => True
  | .cons _ _ type rest, (datum, others) =>
    (∀ x, datum = some x → type.IsFinite x) ∧ rest.IsFinite others

end

mutual

/-- The datum without the floats that have no JSON form: as a record's member such a float is
missing, in a list it is skipped, and alone it is nothing. -/
def WireType.finitePart? : (t : WireType) → t.Carrier → Option t.Carrier
  | .float, x => if x.isFinite then some x else none
  | .record _ layout, members => some (layout.finitePart members)
  | .list item, items => some (items.filterMap item.finitePart?)
  | _, x => some x

def Layout.finitePart : (l : Layout) → l.Carrier → l.Carrier
  | .nil, _ => ()
  | .cons _ _ type rest, (datum, others) =>
    (datum.bind type.finitePart?, rest.finitePart others)

end

mutual

theorem WireType.finitePart?_eq_some :
    ∀ (t : WireType) (x : t.Carrier), t.IsFinite x → t.finitePart? x = some x
  | .bool, _, _ | .int64, _, _ | .int32, _, _ | .uint32, _, _ | .text, _, _ | .word _, _, _ => rfl
  | .float, _, h => if_pos h
  | .record _ layout, members, h => congrArg some (layout.finitePart_eq_self members h)
  | .list item, items, h => by
    have hitems : ∀ x ∈ items, item.finitePart? x = some x := fun x hx =>
      item.finitePart?_eq_some x (h x hx)
    have hall : items.filterMap item.finitePart? = items := by
      rw [List.filterMap_congr hitems, List.filterMap_some]
    exact congrArg some hall

theorem Layout.finitePart_eq_self :
    ∀ (l : Layout) (members : l.Carrier), l.IsFinite members → l.finitePart members = members
  | .nil, _, _ => rfl
  | .cons _ _ type rest, (datum, others), h => by
    have hdatum : datum.bind type.finitePart? = datum := by
      cases datum with
      | none => rfl
      | some x => exact type.finitePart?_eq_some x (h.1 x rfl)
    exact Prod.ext hdatum (rest.finitePart_eq_self others h.2)

end

/-! ## Data of finite values -/

mutual

/-- Finite values hold finite data. -/
theorem WireType.isFinite_decode (v : Version) : ∀ (t : WireType) {raw : Value} {x : t.Carrier},
    raw.IsFinite → t.decode v raw = some x → t.IsFinite x
  | .bool, _, _, _, _ | .int64, _, _, _, _ | .int32, _, _, _, _ | .uint32, _, _, _, _
  | .text, _, _, _, _ | .word _, _, _, _, _ => trivial
  | .float, raw, x, hraw, h => by
    cases raw with
    | integer n =>
      cases h
      exact Binary64.isFinite_ofInt_toInt n
    | float y =>
      cases h
      exact hraw
    | _ => cases h
  | .record _ layout, raw, x, hraw, h => by
    cases raw with
    | struct members =>
      cases h
      exact layout.isFinite_decode v hraw
    | _ => cases h
  | .list item, raw, x, hraw, h => by
    cases raw with
    | list items =>
      cases h
      intro x hx
      obtain ⟨value, hvalue, hdecode⟩ := List.mem_filterMap.1 hx
      exact item.isFinite_decode v ((Value.isFiniteItems_iff _).1 hraw value hvalue) hdecode
    | _ => cases h

theorem Layout.isFinite_decode (v : Version) : ∀ (l : Layout) {p : Params},
    p.IsFinite → l.IsFinite (l.decode v p)
  | .nil, _, _ => trivial
  | .cons _ handle type rest, p, hp => by
    refine ⟨fun x hx => ?_, rest.isFinite_decode v hp⟩
    obtain ⟨raw, hraw, hdecode⟩ := Option.bind_eq_some_iff.1 hx
    exact type.isFinite_decode v (hp.get? hraw) hdecode

end

/-! ## Values of data -/

mutual

theorem WireType.wellFormed_encode (v : Version) :
    ∀ (t : WireType) (x : t.Carrier), (t.encode v x).WellFormed
  | .bool, _ | .int64, _ | .int32, _ | .uint32, _ | .text, _ | .word _, _ => trivial
  | .float, x => by
    unfold WireType.encode Value.ofFloat
    split <;> trivial
  | .record _ layout, members => layout.wellFormed_write v members Params.wellFormed_empty
  | .list item, items => by
    refine (Value.wellFormedItems_iff _).2 fun value hvalue => ?_
    obtain ⟨x, -, rfl⟩ := List.mem_map.1 hvalue
    exact item.wellFormed_encode v x

theorem Layout.wellFormed_write (v : Version) : ∀ (l : Layout) (members : l.Carrier)
    {p : Params}, p.WellFormed → (l.write v members p).WellFormed
  | .nil, _, _, hp => hp
  | .cons _ _ _ rest, (none, others), _, hp => rest.wellFormed_write v others (hp.remove _)
  | .cons _ _ type rest, (some x, others), _, hp =>
    rest.wellFormed_write v others (hp.set _ (type.wellFormed_encode v x))

end

mutual

theorem WireType.isFinite_encode (v : Version) :
    ∀ (t : WireType) (x : t.Carrier), (t.encode v x).IsFinite
  | .bool, _ | .int64, _ | .int32, _ | .uint32, _ | .text, _ | .word _, _ => trivial
  | .float, x => Value.isFinite_ofFloat x
  | .record _ layout, members => layout.isFinite_write v members Params.isFinite_empty
  | .list item, items => by
    refine (Value.isFiniteItems_iff _).2 fun value hvalue => ?_
    obtain ⟨x, -, rfl⟩ := List.mem_map.1 hvalue
    exact item.isFinite_encode v x

theorem Layout.isFinite_write (v : Version) : ∀ (l : Layout) (members : l.Carrier)
    {p : Params}, p.IsFinite → (l.write v members p).IsFinite
  | .nil, _, _, hp => hp
  | .cons _ _ _ rest, (none, others), _, hp => rest.isFinite_write v others (hp.remove _)
  | .cons _ _ type rest, (some x, others), _, hp =>
    rest.isFinite_write v others (hp.set _ (type.isFinite_encode v x))

end

end HeadUnit
