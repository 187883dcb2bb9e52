import HeadUnit.Proofs.Value.Text
import HeadUnit.Proofs.WireType.RoundTrip

/-!
# Plain and steady wire types

The text of plain data is read back as their tree: a plain type has no floats, and no member of it
has the embedding key. The values of steady data are the same at every version: a steady type has
no renamed words and no overridden keys.

## Main definitions

* `WireType.isPlain`, `WireType.isSteady` — plain and steady types.
* `WireType.depth` — how deep the values of a type are nested.

## Main statements

* `WireType.legible_toJson_encode` — the text of plain data.
* `WireType.encode_eq_of_isSteady` — the values of steady data.
-/

namespace HeadUnit

mutual

/-- Whether the data have no floats and no member has the embedding key. -/
def WireType.isPlain : WireType → Bool
  | .float => false
  | .record _ layout => layout.isPlain
  | .list item => item.isPlain
  | _ => true

def Layout.isPlain : Layout → Bool
  | .nil => true
  | .cons _ handle type rest =>
    !handle.keys.keys.contains Json.embeddingKey && type.isPlain && rest.isPlain

end

mutual

/-- Whether words and members keep their names and keys at every version. -/
def WireType.isSteady : WireType → Bool
  | .word table => table.renamings.isEmpty
  | .record _ layout => layout.isSteady
  | .list item => item.isSteady
  | _ => true

def Layout.isSteady : Layout → Bool
  | .nil => true
  | .cons _ handle type rest => handle.keys.overrides.isEmpty && type.isSteady && rest.isSteady

end

mutual

/-- The greatest number of structs and lists inside each other in a value of the type. -/
def WireType.depth : WireType → Nat
  | .record _ layout => layout.depth + 1
  | .list item => item.depth + 1
  | _ => 0

def Layout.depth : Layout → Nat
  | .nil => 0
  | .cons _ _ type rest => max type.depth rest.depth

end

/-! ## Plain data -/

theorem KeyTable.resolve_mem_keys (t : KeyTable) (v : Version) : t.resolve v ∈ t.keys := by
  unfold resolve
  split
  case h_1 o ho =>
    exact List.mem_cons_of_mem _ (List.mem_map_of_mem (List.mem_of_find?_eq_some ho))
  case h_2 => exact List.mem_cons_self

mutual

/-- Plain data are finite. -/
theorem WireType.isFinite_of_isPlain : ∀ (t : WireType) (x : t.Carrier),
    t.isPlain = true → t.IsFinite x
  | .bool, _, _ | .int64, _, _ | .int32, _, _ | .uint32, _, _ | .text, _, _ | .word _, _, _ =>
    trivial
  | .record _ layout, members, h => layout.isFinite_of_isPlain members h
  | .list item, _, h => fun x _ => item.isFinite_of_isPlain x h

theorem Layout.isFinite_of_isPlain : ∀ (l : Layout) (members : l.Carrier),
    l.isPlain = true → l.IsFinite members
  | .nil, _, _ => trivial
  | .cons _ _ type rest, (_, others), h => by
    simp only [Layout.isPlain, Bool.and_eq_true] at h
    exact ⟨fun x _ => type.isFinite_of_isPlain x h.1.2, rest.isFinite_of_isPlain others h.2⟩

end

mutual

/-- The text of plain data is read back. -/
theorem WireType.legible_toJson_encode (v : Version) : ∀ (t : WireType) (x : t.Carrier),
    t.isPlain = true → (t.encode v x).toJson.Legible t.depth
  | .bool, _, _ | .text, _, _ | .word _, _, _ => ⟨trivial, trivial, Nat.le_refl 0⟩
  | .int64, n, _ => Value.legible_toJson_integer n
  | .int32, n, _ => Value.legible_toJson_integer n.toInt64
  | .uint32, n, _ => Value.legible_toJson_integer (.ofInt n.toNat)
  | .record _ layout, members, h =>
    Value.legible_toJson_struct
      (layout.legible_write v members h (Nat.le_refl _) (List.forall_mem_nil _))
  | .list item, items, h => by
    refine Value.legible_toJson_list fun value hvalue => ?_
    obtain ⟨x, -, rfl⟩ := List.mem_map.1 hvalue
    exact item.legible_toJson_encode v x h

/-- Writing plain members keeps every member legible. -/
theorem Layout.legible_write (v : Version) : ∀ (l : Layout) (members : l.Carrier) {p : Params}
    {depth : Nat}, l.isPlain = true → l.depth ≤ depth →
    (∀ m ∈ p.members, m.1 ≠ Json.embeddingKey ∧ m.2.toJson.Legible depth) →
    ∀ m ∈ (l.write v members p).members, m.1 ≠ Json.embeddingKey ∧ m.2.toJson.Legible depth
  | .nil, _, _, _, _, _, hp => hp
  | .cons _ handle type rest, (datum, others), p, depth, h, hdepth, hp => by
    simp only [Layout.isPlain, Bool.and_eq_true, Bool.not_eq_true', List.contains_eq_mem,
      decide_eq_false_iff_not] at h
    obtain ⟨htype, hrest⟩ := Nat.max_le.1 hdepth
    have hkey : handle.key v ≠ Json.embeddingKey := fun he =>
      h.1.1 (he ▸ handle.keys.resolve_mem_keys v)
    rw [Layout.write_cons]
    refine rest.legible_write v others h.2 hrest fun m hm => ?_
    cases datum with
    | none => exact hp m (List.mem_filter.1 hm).1
    | some x =>
      rcases Value.mem_put hm with ⟨rfl, -⟩ | hm
      · exact ⟨hkey, (type.legible_toJson_encode v x h.1.2).mono htype⟩
      · exact hp m hm

end

/-! ## Steady data -/

theorem KeyTable.resolve_eq_of_isEmpty {t : KeyTable} (h : t.overrides.isEmpty = true)
    (v w : Version) : t.resolve v = t.resolve w := by
  rw [resolve, resolve, List.isEmpty_iff.1 h]
  rfl

theorem Vocabulary.wireName_eq_of_isEmpty {t : Vocabulary} (h : t.renamings.isEmpty = true)
    (v w : Version) (word : t.Word) : t.wireName v word = t.wireName w word := by
  rw [wireName, wireName, List.isEmpty_iff.1 h]
  rfl

mutual

/-- The value of a steady datum is the same at every version. -/
theorem WireType.encode_eq_of_isSteady (v w : Version) : ∀ (t : WireType) (x : t.Carrier),
    t.isSteady = true → t.encode v x = t.encode w x
  | .bool, _, _ | .int64, _, _ | .int32, _, _ | .uint32, _, _ | .float, _, _ | .text, _, _ => rfl
  | .word _, word, h => congrArg Value.text (Vocabulary.wireName_eq_of_isEmpty h v w word)
  | .record _ layout, members, h =>
    congrArg Params.toValue (layout.write_eq_of_isSteady v w members .empty h)
  | .list item, _, h =>
    congrArg Value.list (List.map_congr_left fun x _ => item.encode_eq_of_isSteady v w x h)

theorem Layout.write_eq_of_isSteady (v w : Version) : ∀ (l : Layout) (members : l.Carrier)
    (p : Params), l.isSteady = true → l.write v members p = l.write w members p
  | .nil, _, _, _ => rfl
  | .cons _ handle type rest, (datum, others), p, h => by
    simp only [Layout.isSteady, Bool.and_eq_true] at h
    have hkey : handle.key v = handle.key w := KeyTable.resolve_eq_of_isEmpty h.1.1 v w
    have hdatum : p.write type (handle.key v) datum v = p.write type (handle.key w) datum w := by
      cases datum with
      | none => exact congrArg p.remove hkey
      | some x => rw [Params.write, Params.write, hkey, type.encode_eq_of_isSteady v w x h.1.2]
    rw [Layout.write_cons, Layout.write_cons, hdatum, rest.write_eq_of_isSteady v w others _ h.2]

end

end HeadUnit
