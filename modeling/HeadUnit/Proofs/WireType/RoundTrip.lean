import HeadUnit.Field
import HeadUnit.Proofs.WireType.Lawful

/-!
# Data through values

A lawful type reads back the datum that it wrote, without the floats that have no JSON form. So a
finite datum comes back as it was, and moving a value from one version to another does not depend
on the versions in between.

## Main statements

* `WireType.decode_encode` — what comes back at a version where the type is lawful.
* `WireType.decode_encode_of_isFinite` — a finite datum comes back as it was.
* `WireType.transcode_transcode` — transcoding does not depend on the way.
-/

namespace HeadUnit

variable {t : WireType} {v w : Version}

/-! ## Leaves -/

theorem int32Of?_toInt64 (n : Int32) : int32Of? n.toInt64 = some n := by
  have hlow := n.le_toInt
  have hhigh := n.toInt_lt
  rw [int32Of?, Int32.toInt_toInt64, if_pos (by omega), Int32.ofInt_toInt]

theorem uint32Of?_ofNat (n : UInt32) : uint32Of? (.ofInt n.toNat) = some n := by
  have hlt := n.toNat_lt
  have hint : (Int64.ofInt n.toNat).toInt = n.toNat :=
    Int64.toInt_ofInt_of_le (by omega) (by omega)
  rw [uint32Of?, hint, if_pos (by omega)]
  simp

namespace WireType

/-- Null is no datum of any type. -/
@[simp] theorem decode_null (t : WireType) (v : Version) : t.decode v .null = none := by
  cases t <;> rfl

/-- The value of a datum is absent only if it is null. -/
theorem isAbsent_encode_eq (x : t.Carrier) :
    (t.encode v x).isAbsent = (t.encode v x).isNull := by
  cases t with
  | float =>
    unfold encode Value.ofFloat
    split
    case isTrue h => simp [Value.isAbsent, Value.isNull, h]
    case isFalse => rfl
  | _ => rfl

theorem encode_eq_null {x : t.Carrier} (h : (t.encode v x).isAbsent = true) :
    t.encode v x = .null := by
  rw [isAbsent_encode_eq] at h
  cases hvalue : t.encode v x with
  | null => rfl
  | _ =>
    rw [hvalue] at h
    cases h

/-- The value of a finite datum is never absent. -/
theorem isAbsent_encode (v : Version) {x : t.Carrier} (hx : t.IsFinite x) :
    (t.encode v x).isAbsent = false := by
  cases t with
  | float =>
    have hfinite : Binary64.isFinite x = true := hx
    simp [encode, Value.ofFloat, Value.isAbsent, hfinite]
  | _ => rfl

/-- The value of a finite datum can be stored. -/
theorem filter_isAbsent_encode (v : Version) (datum : Option t.Carrier)
    (h : ∀ x, datum = some x → t.IsFinite x) :
    (datum.map (t.encode v)).filter (!·.isAbsent) = datum.map (t.encode v) := by
  cases datum with
  | none => rfl
  | some x => simp [Option.filter, isAbsent_encode v (h x rfl)]

end WireType

/-! ## Written parameters -/

namespace Params

theorem get?_write (p : Params) (t : WireType) (key other : String) (datum : Option t.Carrier)
    (v : Version) : (p.write t key datum v).get? other =
      if key = other then (datum.map (t.encode v)).filter (!·.isAbsent) else p.get? other := by
  cases datum with
  | none => exact get?_remove p key other
  | some x =>
    rw [write, get?_set]
    by_cases h : (t.encode v x).isAbsent <;> simp [Option.filter, h]

/-- A key reads back as the datum that was written under it, after encoding and decoding. -/
theorem read_write (p : Params) (t : WireType) (key : String) (datum : Option t.Carrier)
    (v : Version) : (p.write t key datum v).read t key v =
      datum.bind fun x => t.decode v (t.encode v x) := by
  rw [read, get?_write, if_pos rfl]
  cases datum with
  | none => rfl
  | some x =>
    by_cases h : (t.encode v x).isAbsent
    · simp [Option.filter, WireType.encode_eq_null h]
    · simp [Option.filter, h]

theorem WellFormed.write {p : Params} (hp : p.WellFormed) (key : String)
    (datum : Option t.Carrier) (v : Version) : (p.write t key datum v).WellFormed := by
  cases datum with
  | none => exact hp.remove key
  | some x => exact hp.set key (t.wellFormed_encode v x)

theorem IsFinite.write {p : Params} (hp : p.IsFinite) (key : String)
    (datum : Option t.Carrier) (v : Version) : (p.write t key datum v).IsFinite := by
  cases datum with
  | none => exact hp.remove key
  | some x => exact hp.set key (t.isFinite_encode v x)

end Params

namespace Layout

theorem keys_cons (label : String) (handle : Handle) (rest : Layout) :
    (cons label handle t rest).keys v = handle.key v :: rest.keys v := rfl

theorem write_cons (label : String) (handle : Handle) (rest : Layout) (datum : Option t.Carrier)
    (others : rest.Carrier) (p : Params) :
    (cons label handle t rest).write v (datum, others) p =
      rest.write v others (p.write t (handle.key v) datum v) := by
  cases datum <;> rfl

/-- Writing the members of a layout leaves all other keys alone. -/
theorem get?_write (v : Version) : ∀ (l : Layout) (members : l.Carrier) (p : Params)
    {key : String}, key ∉ l.keys v → (l.write v members p).get? key = p.get? key
  | .nil, _, _, _, _ => rfl
  | .cons _ handle type rest, (datum, others), p, key, h => by
    have hne : handle.key v ≠ key := fun he => h (he ▸ List.mem_cons_self)
    have hrest : key ∉ rest.keys v := fun hmem => h (List.mem_cons_of_mem _ hmem)
    rw [write_cons, get?_write v rest others _ hrest, Params.get?_write, if_neg hne]

end Layout

/-! ## Round trips -/

mutual

/-- A lawful type reads back what it wrote, without the floats that have no JSON form. -/
theorem WireType.decode_encode (v : Version) : ∀ (t : WireType) (x : t.Carrier),
    t.LawfulAt v → t.decode v (t.encode v x) = t.finitePart? x
  | .bool, _, _ | .int64, _, _ | .text, _, _ => rfl
  | .int32, n, _ => int32Of?_toInt64 n
  | .uint32, n, _ => uint32Of?_ofNat n
  | .float, x, _ => by
    unfold WireType.encode Value.ofFloat WireType.finitePart?
    split <;> rfl
  | .word _, w, h => Vocabulary.ofWireName?_wireName h w
  | .record _ layout, members, h => congrArg some (layout.decode_write v members .empty h)
  | .list item, items, h => by
    have hitem : (fun x => item.decode v (item.encode v x)) = item.finitePart? :=
      funext fun x => item.decode_encode v x h
    have hitems : (items.map (item.encode v)).filterMap (item.decode v) =
        items.filterMap item.finitePart? := by
      rw [List.filterMap_map, ← hitem]
      rfl
    exact congrArg some hitems

theorem Layout.decode_write (v : Version) : ∀ (l : Layout) (members : l.Carrier) (p : Params),
    l.LawfulAt v → l.decode v (l.write v members p) = l.finitePart members
  | .nil, _, _, _ => rfl
  | .cons _ handle type rest, (datum, others), p, ⟨⟨hkey, htype⟩, hrest⟩ => by
    have hdecode : (fun x => type.decode v (type.encode v x)) = type.finitePart? :=
      funext fun x => type.decode_encode v x htype
    have hread := Params.read_write p type (handle.key v) datum v
    rw [hdecode, Params.read] at hread
    rw [Layout.write_cons, Layout.decode, Layout.get?_write v rest others _ hkey, hread,
      rest.decode_write v others _ hrest]
    rfl

end

namespace WireType

/-- A finite datum comes back as it was. -/
theorem decode_encode_of_isFinite (h : t.LawfulAt v) {x : t.Carrier} (hx : t.IsFinite x) :
    t.decode v (t.encode v x) = some x :=
  (t.decode_encode v x h).trans (t.finitePart?_eq_some x hx)

/-- A stored value transcodes to one that can be stored: only a float without a JSON form cannot,
and the stored floats have one. -/
theorem isAbsent_transcode {raw value : Value} (hraw : raw.isAbsent = false)
    (h : t.transcode v w raw = some value) : value.isAbsent = false := by
  obtain ⟨x, hx, rfl⟩ := Option.map_eq_some_iff.1 h
  cases t with
  | float =>
    have hfinite : Binary64.isFinite x = true := by
      cases raw with
      | integer n =>
        cases hx
        exact Binary64.isFinite_ofInt_toInt n
      | float y =>
        cases hx
        simpa [Value.isAbsent] using hraw
      | _ => cases hx
    simp [encode, Value.ofFloat, Value.isAbsent, hfinite]
  | _ => rfl

/-- Transcoding a finite value does not depend on the version in between. -/
theorem transcode_transcode (u : Version) (h : t.LawfulAt v) {raw : Value} (hraw : raw.IsFinite) :
    (t.transcode u v raw).bind (t.transcode v w) = t.transcode u w raw := by
  unfold transcode
  cases hdecode : t.decode u raw with
  | none => rfl
  | some x =>
    have hx := t.isFinite_decode u hraw hdecode
    simp [decode_encode_of_isFinite h hx]

end WireType

end HeadUnit
