import HeadUnit.Proofs.WireType.RoundTrip

/-!
# Canonical values

What a type has written is canonical: read and written once more it is the same value. This needs
no laws. Words that share a name are written alike, and of members that share a key the last one
decides both times.

Types of one kind need not write the same values, since integers of every width have one kind.
What a type of another width leaves of a value are the integers that fit.

## Main definitions

* `WireType.Writes` — the values that a type writes for finite data.
* `WireType.fitting?` — a value without the integers that do not fit.

## Main statements

* `WireType.transcode_eq_self_iff` — the canonical values are those that are written.
* `WireType.eq_of_kind_eq` — types without integers, words and records are known by their kinds.
* `WireType.transcode_encode_of_integers` — lists of integers, read at another width.
-/

namespace HeadUnit

variable {v : Version}

/-! ## What a type has written -/

/-- Lawful types read back the very datum. -/
theorem WireType.transcode_encode_of_lawfulAt (t : WireType) (h : t.LawfulAt v) {x : t.Carrier}
    (hx : t.IsFinite x) : t.transcode v v (t.encode v x) = some (t.encode v x) := by
  rw [transcode, decode_encode_of_isFinite h hx]
  rfl

mutual

/-- A finite datum's value is canonical. -/
theorem WireType.transcode_encode (v : Version) : ∀ (t : WireType) (x : t.Carrier),
    t.IsFinite x → t.transcode v v (t.encode v x) = some (t.encode v x)
  | .bool, _, _ | .int64, _, _ | .text, _, _ => rfl
  | .int32, _, h => WireType.transcode_encode_of_lawfulAt .int32 trivial h
  | .uint32, _, h => WireType.transcode_encode_of_lawfulAt .uint32 trivial h
  | .float, _, h => WireType.transcode_encode_of_lawfulAt .float trivial h
  | .word table, word, _ => by
    obtain ⟨other, hfind, hname⟩ := Vocabulary.exists_ofWireName?_wireName v word
    change (table.ofWireName? v (table.wireName v word)).map _ = _
    rw [hfind, Option.map_some]
    exact congrArg (fun name => some (Value.text name)) hname
  | .record _ layout, members, h => by
    have hagain : layout.write v (layout.decode v (layout.write v members .empty)) .empty =
        layout.write v members .empty := by
      refine Params.eq_of_get?_eq (layout.wellFormed_write v _ Params.wellFormed_empty)
        (layout.wellFormed_write v _ Params.wellFormed_empty) fun key => ?_
      rw [layout.get?_write_decode_write v members .empty .empty key h]
      split
      case isTrue => rfl
      case isFalse hkey => rw [Layout.get?_write v layout members .empty hkey]
    exact congrArg (fun p => some p.toValue) hagain
  | .list item, items, h => by
    have hitems : ((items.map (item.encode v)).filterMap (item.decode v)).map (item.encode v) =
        items.map (item.encode v) := by
      rw [List.map_filterMap, List.filterMap_map, ← List.filterMap_eq_map]
      exact List.filterMap_congr fun x hx => item.transcode_encode v x (h x hx)
    exact congrArg (fun items => some (Value.list items)) hitems

/-- Members that are read from written parameters are written alike again, to any parameters. Of
two members with one key the last decides both times. -/
theorem Layout.get?_write_decode_write (v : Version) : ∀ (l : Layout) (members : l.Carrier)
    (p q : Params) (key : String), l.IsFinite members →
    (l.write v (l.decode v (l.write v members p)) q).get? key =
      if key ∈ l.keys v then (l.write v members p).get? key else q.get? key
  | .nil, _, _, _, _, _ => rfl
  | .cons _ handle type rest, (datum, others), p, q, key, h => by
    have hdatum : ((datum.map (type.encode v)).bind (type.decode v)).map (type.encode v) =
        datum.map (type.encode v) := by
      cases datum with
      | none => rfl
      | some x => exact type.transcode_encode v x (h.1 x rfl)
    rw [Layout.write_cons, Layout.decode, Layout.write_cons, Layout.keys_cons,
      rest.get?_write_decode_write v others _ _ key h.2]
    by_cases hrest : key ∈ rest.keys v
    · rw [if_pos hrest, if_pos (List.mem_cons_of_mem _ hrest)]
    rw [if_neg hrest, Params.get?_write]
    by_cases hkey : handle.key v = key
    · have hstored := WireType.filter_isAbsent_encode v datum h.1
      subst hkey
      rw [if_pos rfl, if_pos List.mem_cons_self, Layout.get?_write v rest others _ hrest,
        Params.get?_write, if_pos rfl, hstored, hdatum, hstored]
    · rw [if_neg hkey, if_neg (by simp [hrest, Ne.symm hkey])]

end

namespace WireType

variable {t u : WireType} {w : Version}

/-- The type writes the value for some finite datum. -/
def Writes (t : WireType) (v : Version) (value : Value) : Prop :=
  ∃ x, t.IsFinite x ∧ t.encode v x = value

theorem writes_encode (v : Version) {x : t.Carrier} (hx : t.IsFinite x) :
    t.Writes v (t.encode v x) :=
  ⟨x, hx, rfl⟩

/-- The canonical values are those that are written. -/
theorem transcode_eq_self_iff {value : Value} (hvalue : value.IsFinite) :
    t.transcode v v value = some value ↔ t.Writes v value := by
  constructor
  · intro h
    obtain ⟨x, hx, hencode⟩ := Option.map_eq_some_iff.1 h
    exact ⟨x, t.isFinite_decode v hvalue hx, hencode⟩
  · rintro ⟨x, hx, rfl⟩
    exact t.transcode_encode v x hx

end WireType

/-! ## Types of one kind -/

/-- The kind of the items inside all lists. -/
def Kind.innermost : Kind → Kind
  | .list item => item.innermost
  | kind => kind

namespace WireType

variable {t u : WireType} {w : Version}

/-- Truth values, floats, text and lists of these have one type for each kind. -/
theorem eq_of_kind_eq : ∀ (t u : WireType), t.kind = u.kind →
    t.kind.innermost ∈ [Kind.bool, .float, .text] → t = u
  | .bool, u, h, _ | .float, u, h, _ | .text, u, h, _ => by
    cases u <;> cases h
    rfl
  | .int64, _, _, hmem | .int32, _, _, hmem | .uint32, _, _, hmem | .word _, _, _, hmem
  | .record .., _, _, hmem => by simp [kind, Kind.innermost] at hmem
  | .list item, u, h, hmem => by
    cases u with
    | list other =>
      injection h with h
      exact congrArg list (eq_of_kind_eq item other h hmem)
    | _ => cases h

/-- The value without the integers that do not fit the type, here and in lists. -/
def fitting? : WireType → Value → Option Value
  | .int32, .integer n =>
    if -0x80000000 ≤ n.toInt ∧ n.toInt < 0x80000000 then some (.integer n) else none
  | .uint32, .integer n => if 0 ≤ n.toInt ∧ n.toInt < 0x100000000 then some (.integer n) else none
  | .list item, .list items => some (.list (items.filterMap item.fitting?))
  | _, value => some value

theorem encode_int32_ofInt (w : Version) {n : Int64}
    (h : -0x80000000 ≤ n.toInt ∧ n.toInt < 0x80000000) :
    int32.encode w (.ofInt n.toInt) = .integer n := by
  have hword : (Int32.ofInt n.toInt).toInt64 = n := by
    rw [← Int64.toInt_inj, Int32.toInt_toInt64, Int32.toInt_ofInt_of_le h.1 h.2]
  exact congrArg Value.integer hword

theorem encode_uint32_ofNat (w : Version) {n : Int64}
    (h : 0 ≤ n.toInt ∧ n.toInt < 0x100000000) :
    uint32.encode w (.ofNat n.toInt.toNat) = .integer n := by
  have hsize : n.toInt.toNat < UInt32.size := by
    change _ < 0x100000000
    omega
  have hword : Int64.ofInt (UInt32.ofNat n.toInt.toNat).toNat = n := by
    rw [UInt32.toNat_ofNat_of_lt' hsize, Int.toNat_of_nonneg h.1, Int64.ofInt_toInt]
  exact congrArg Value.integer hword

/-- An integer is kept as it is if it fits. -/
theorem transcode_integer (v w : Version) (hkind : t.kind = .integer) (n : Int64) :
    t.transcode v w (.integer n) = t.fitting? (.integer n) := by
  cases t with
  | int64 => rfl
  | int32 =>
    change (int32Of? n).map (int32.encode w) = _
    rw [int32Of?, fitting?]
    split
    case isTrue h => exact congrArg some (encode_int32_ofInt w h)
    case isFalse => rfl
  | uint32 =>
    change (uint32Of? n).map (uint32.encode w) = _
    rw [uint32Of?, fitting?]
    split
    case isTrue h => exact congrArg some (encode_uint32_ofNat w h)
    case isFalse => rfl
  | _ => cases hkind

theorem exists_encode_eq_integer (v : Version) (hkind : t.kind = .integer) (x : t.Carrier) :
    ∃ n, t.encode v x = .integer n := by
  cases t with
  | int64 | int32 | uint32 => exact ⟨_, rfl⟩
  | _ => cases hkind

/-- Integers that are read at another width are kept if they fit; in a list the others are left
out. -/
theorem transcode_encode_of_integers (v w : Version) : ∀ (t u : WireType) (x : t.Carrier),
    t.kind = u.kind → t.kind.innermost = .integer →
    u.transcode v w (t.encode v x) = u.fitting? (t.encode v x)
  | .int64, u, x, hkind, _ | .int32, u, x, hkind, _ | .uint32, u, x, hkind, _ => by
    obtain ⟨n, hn⟩ := exists_encode_eq_integer v rfl x
    rw [hn, transcode_integer v w hkind.symm]
  | .list item, u, items, hkind, hmem => by
    cases u with
    | list other =>
      injection hkind with hkind
      have hitems : ((items.map (item.encode v)).filterMap (other.decode v)).map (other.encode w) =
          (items.map (item.encode v)).filterMap other.fitting? := by
        rw [List.map_filterMap]
        refine List.filterMap_congr fun value hvalue => ?_
        obtain ⟨x, -, rfl⟩ := List.mem_map.1 hvalue
        exact transcode_encode_of_integers v w item other x hkind hmem
      exact congrArg (fun items => some (Value.list items)) hitems
    | _ => cases hkind
  | .bool, _, _, _, h | .float, _, _, _, h | .text, _, _, _, h | .word _, _, _, _, h
  | .record .., _, _, _, h => by cases h

end WireType

end HeadUnit
