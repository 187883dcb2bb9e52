import HeadUnit.Proofs.Json.RoundTrip
import HeadUnit.Proofs.Value.RoundTrip

/-!
# Trees of values as text

The tree of a well-formed value is well-formed, so its text is read back.

## Main statements

* `Value.wellFormed_toJson` — keys ascend in the tree of a well-formed value.
* `Value.legible_toJson_list`, `Value.legible_toJson_struct` — legible trees of compound values.
-/

namespace HeadUnit

namespace Value

mutual

/-- Keys ascend in the tree of a well-formed value. -/
theorem wellFormed_toJson : ∀ value : Value, value.WellFormed → value.toJson.WellFormed
  | .null, _ | .bool _, _ | .text _, _ => trivial
  | .integer n, _ => by
    obtain ⟨low, high, h⟩ := Json.ofInt_toInt n
    rw [toJson, h]
    trivial
  | .float x, _ => by
    unfold toJson Json.ofFloat
    split <;> trivial
  | .struct members, h => ⟨ascending_toJsonMembers h.1 h.2, wellFormed_toJsonMembers members h.2⟩
  | .list items, h => wellFormed_toJsonItems items h

theorem wellFormed_toJsonItems : ∀ items : List Value, WellFormedItems items →
    Json.WellFormedItems (toJsonItems items)
  | [], _ => trivial
  | item :: rest, h => ⟨wellFormed_toJson item h.1, wellFormed_toJsonItems rest h.2⟩

theorem wellFormed_toJsonMembers : ∀ members : List (String × Value), WellFormedMembers members →
    Json.WellFormedMembers (toJsonMembers members)
  | [], _ => trivial
  | (key, value) :: rest, h => by
    rw [toJsonMembers, isNull_toJson, h.1.1]
    exact ⟨wellFormed_toJson value h.1.2, wellFormed_toJsonMembers rest h.2⟩

end

theorem mem_toJsonItems {items : List Value} {json : Json} (h : json ∈ toJsonItems items) :
    ∃ item ∈ items, item.toJson = json := by
  induction items with
  | nil => cases h
  | cons item rest ih =>
    rcases List.mem_cons.1 h with rfl | h
    · exact ⟨item, List.mem_cons_self, rfl⟩
    · obtain ⟨other, hmem, hjson⟩ := ih h
      exact ⟨other, List.mem_cons_of_mem _ hmem, hjson⟩

theorem mem_toJsonMembers {members : Members Value} {m : String × Json}
    (h : m ∈ toJsonMembers members) : ∃ value, (m.1, value) ∈ members ∧ value.toJson = m.2 := by
  induction members with
  | nil => cases h
  | cons first rest ih =>
    obtain ⟨key, value⟩ := first
    have hcases : m = (key, value.toJson) ∨ m ∈ toJsonMembers rest := by
      rw [toJsonMembers] at h
      split at h
      · exact .inr h
      · exact List.mem_cons.1 h
    rcases hcases with rfl | h
    · exact ⟨value, List.mem_cons_self, rfl⟩
    · obtain ⟨other, hmem, hjson⟩ := ih h
      exact ⟨other, List.mem_cons_of_mem _ hmem, hjson⟩

theorem legible_toJson_integer (n : Int64) : (integer n).toJson.Legible 0 := by
  obtain ⟨low, high, h⟩ := Json.ofInt_toInt n
  rw [toJson, h]
  exact ⟨trivial, trivial, Nat.le_refl 0⟩

theorem legible_toJson_list {depth : Nat} {items : List Value}
    (h : ∀ item ∈ items, item.toJson.Legible depth) : (list items).toJson.Legible (depth + 1) := by
  refine Json.legible_array fun json hjson => ?_
  obtain ⟨item, hitem, rfl⟩ := mem_toJsonItems hjson
  exact h item hitem

theorem legible_toJson_struct {depth : Nat} {members : Members Value}
    (h : ∀ m ∈ members, m.1 ≠ Json.embeddingKey ∧ m.2.toJson.Legible depth) :
    (struct members).toJson.Legible (depth + 1) := by
  refine Json.legible_object (fun m hm => ?_) fun m hm => ?_
  all_goals obtain ⟨value, hvalue, hjson⟩ := mem_toJsonMembers hm
  · exact (h _ hvalue).1
  · exact hjson ▸ (h _ hvalue).2

end Value

end HeadUnit
