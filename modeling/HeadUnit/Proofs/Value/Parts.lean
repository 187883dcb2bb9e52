import HeadUnit.Proofs.Value.Text

/-!
# Parts of values and trees

The structs inside a value, and the objects inside a tree, stand in members and items of others,
at any depth. Whatever is well-formed is so in every part, and the tree of a value has no null
member in any part, whether the value is well-formed or not.

## Main definitions

* `Value.HasPart`, `Json.HasPart` — what stands somewhere in a value, or in a tree.

## Main statements

* `Value.WellFormed.part` — parts of well-formed values are well-formed.
* `Value.isNull_of_hasPart_toJson` — no object of a value's tree has a null member.
-/

namespace HeadUnit

/-- A part is the tree itself, or a part of an item or of a member's value. -/
inductive Json.HasPart (part : Json) : Json → Prop where
  | self : HasPart part part
  | item {items : List Json} {item : Json} (hitem : item ∈ items) (h : HasPart part item) :
    HasPart part (.array items)
  | member {members : Members Json} {m : String × Json} (hm : m ∈ members)
    (h : HasPart part m.2) : HasPart part (.object members)

namespace Value

/-- A part is the value itself, or a part of an item or of a member's value. -/
inductive HasPart (part : Value) : Value → Prop where
  | self : HasPart part part
  | item {items : List Value} {item : Value} (hitem : item ∈ items) (h : HasPart part item) :
    HasPart part (.list items)
  | member {members : Members Value} {m : String × Value} (hm : m ∈ members)
    (h : HasPart part m.2) : HasPart part (.struct members)

theorem WellFormed.part {part value : Value} (hvalue : value.WellFormed)
    (h : HasPart part value) : part.WellFormed := by
  induction h with
  | self => exact hvalue
  | item hitem _ ih => exact ih ((wellFormedItems_iff _).1 hvalue _ hitem)
  | member hm _ ih => exact ih ((wellFormedMembers_iff _).1 hvalue.2 _ hm).2

/-! ## Trees -/

theorem isNull_of_mem_toJsonMembers {members : Members Value} {m : String × Json}
    (h : m ∈ toJsonMembers members) : m.2.isNull = false := by
  induction members with
  | nil => cases h
  | cons first rest ih =>
    obtain ⟨key, value⟩ := first
    rw [toJsonMembers] at h
    split at h
    case isTrue => exact ih h
    case isFalse hnull =>
      rcases List.mem_cons.1 h with rfl | h
      · exact Bool.eq_false_iff.2 hnull
      · exact ih h

/-- No object of a value's tree has a null member: each of them is the tree of a struct. -/
theorem isNull_of_hasPart_toJson {members : Members Json} : ∀ value : Value,
    Json.HasPart (.object members) value.toJson → ∀ m ∈ members, m.2.isNull = false
  | .null, h | .bool _, h | .text _, h => nomatch h
  | .integer n, h => by
    obtain ⟨low, high, hn⟩ := Json.ofInt_toInt n
    rw [toJson, hn] at h
    cases h
  | .float x, h => by
    unfold toJson Json.ofFloat at h
    split at h <;> cases h
  | .list items, h => by
    cases h with
    | item hitem h =>
      obtain ⟨item, hmem, rfl⟩ := mem_toJsonItems hitem
      exact isNull_of_hasPart_toJson item h
  | .struct values, h => by
    cases h with
    | self => exact fun m hm => isNull_of_mem_toJsonMembers hm
    | member hm h =>
      obtain ⟨value, hmem, hvalue⟩ := mem_toJsonMembers hm
      exact isNull_of_hasPart_toJson value (hvalue ▸ h)
termination_by value => sizeOf value
decreasing_by
  · have := List.sizeOf_lt_of_mem hmem
    simp only [list.sizeOf_spec]
    omega
  · have := List.sizeOf_lt_of_mem hmem
    simp only [struct.sizeOf_spec, Prod.mk.sizeOf_spec] at this ⊢
    omega

end Value

end HeadUnit
