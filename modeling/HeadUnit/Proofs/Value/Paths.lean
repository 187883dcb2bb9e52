import HeadUnit.Proofs.Value.Relay

/-!
# Paths into trees

A path of keys leads through objects to a place inside a tree, and in the same way through structs
to a place inside a value. What the value of a tree holds at a place is the value of what the tree
holds there, where null members count as missing, as deep as they may stand.

## Main definitions

* `Json.at?`, `Value.at?` — what stands at the end of a path.

## Main statements

* `Value.ofJson_withoutNulls` — null members do not count.
* `Value.at?_ofJson` — the places of a tree's value.
-/

namespace HeadUnit

/-- What stands at the end of a path of keys, where `members?` are the members of a node. -/
def Members.follow {α : Type} (members? : α → Option (Members α)) : List String → α → Option α
  | [], node => some node
  | key :: path, node => ((members? node).bind (get? key)).bind (follow members? path)

theorem Members.follow_append {α : Type} (members? : α → Option (Members α))
    (path others : List String) (node : α) : follow members? (path ++ others) node =
      (follow members? path node).bind (follow members? others) := by
  induction path generalizing node with
  | nil => rfl
  | cons key path ih =>
    simp only [List.cons_append, follow, Option.bind_assoc, ih]

namespace Json

def at? (json : Json) (path : List String) : Option Json :=
  Members.follow members? path json

/-- What is below a member without nulls depends on the member alone. -/
theorem at?_withoutNulls_eq {a b : Members Json} (ha : Members.Ascending a)
    (hb : Members.Ascending b) {key : String} (h : Members.get? key a = Members.get? key b)
    (path : List String) : (object a).withoutNulls.at? (key :: path) =
      (object b).withoutNulls.at? (key :: path) := by
  have hmember : Members.get? key (withoutNullsMembers a) =
      Members.get? key (withoutNullsMembers b) := by
    rw [get?_withoutNullsMembers ha, get?_withoutNullsMembers hb, h]
  exact congrArg (·.bind (·.at? path)) hmember

end Json

namespace Value

def at? (value : Value) (path : List String) : Option Value :=
  Members.follow asStruct? path value

theorem at?_append (value : Value) (path others : List String) :
    value.at? (path ++ others) = (value.at? path).bind (·.at? others) :=
  Members.follow_append asStruct? path others value

theorem at?_singleton (value : Value) (key : String) :
    value.at? [key] = value.asStruct?.bind (Members.get? key) :=
  Option.bind_fun_some _

/-! ## Null members -/

theorem get?_ofJsonMembers {members : Members Json} (h : Members.Ascending members)
    (key : String) : Members.get? key (ofJsonMembers [] members) =
      ((Members.get? key members).filter (!·.isNull)).map ofJson := by
  rw [ofJsonMembers_eq_map h, Members.get?_map, Members.get?_filter_value h.nodup_keys (!·.isNull)]

theorem ascending_withoutNullsMembers {members : Members Json} (h : Members.Ascending members) :
    Members.Ascending (Json.withoutNullsMembers members) := by
  unfold Members.Ascending Members.keys
  rw [Json.withoutNullsMembers_eq_map, List.map_map]
  exact h.sublist (List.filter_sublist.map _)

mutual

/-- A tree and the tree without null members have one value. -/
theorem ofJson_withoutNulls : ∀ json : Json, json.WellFormed →
    ofJson json.withoutNulls = ofJson json
  | .null, _ | .bool _, _ | .integer .., _ | .float .., _ | .string _, _ => rfl
  | .array items, h => congrArg list (ofJsonItems_withoutNullsItems items h)
  | .object members, h => by
    have hmembers := map_ofJson_withoutNullsMembers members h.2
    rw [Json.withoutNulls, ofJson, ofJson, ofJsonMembers_eq_map h.1,
      ofJsonMembers_eq_map (ascending_withoutNullsMembers h.1), hmembers]

theorem ofJsonItems_withoutNullsItems : ∀ items : List Json, Json.WellFormedItems items →
    ofJsonItems (Json.withoutNullsItems items) = ofJsonItems items
  | [], _ => rfl
  | item :: rest, h => by
    rw [Json.withoutNullsItems, ofJsonItems, ofJsonItems, ofJson_withoutNulls item h.1,
      ofJsonItems_withoutNullsItems rest h.2]

theorem map_ofJson_withoutNullsMembers : ∀ members : List (String × Json),
    Json.WellFormedMembers members →
    ((Json.withoutNullsMembers members).filter (!·.2.isNull)).map (fun m => (m.1, ofJson m.2)) =
      (members.filter (!·.2.isNull)).map fun m => (m.1, ofJson m.2)
  | [], _ => rfl
  | (key, json) :: rest, h => by
    have hrest := map_ofJson_withoutNullsMembers rest h.2
    rw [Json.withoutNullsMembers]
    by_cases hnull : json.isNull
    · simpa [hnull] using hrest
    · simp [hnull, Json.isNull_withoutNulls, ofJson_withoutNulls json h.1, hrest]

end

/-! ## Places -/

/-- The value of a tree holds at a place the value of what stands there in the tree, if that is
not inside a null member. -/
theorem at?_ofJson (path : List String) {json : Json} (h : json.WellFormed) :
    (ofJson json).at? path = (json.withoutNulls.at? path).map ofJson := by
  induction path generalizing json with
  | nil => exact congrArg some (ofJson_withoutNulls json h).symm
  | cons key path ih =>
    cases json with
    | object members =>
      change (Members.get? key (ofJsonMembers [] members)).bind (·.at? path) =
        ((Members.get? key (Json.withoutNullsMembers members)).bind (·.at? path)).map ofJson
      rw [get?_ofJsonMembers h.1, Json.get?_withoutNullsMembers h.1]
      cases hget : (Members.get? key members).filter (!·.isNull) with
      | none => rfl
      | some json => exact ih (h.get? (Option.filter_eq_some_iff.1 hget).1)
    | integer n low high =>
      unfold ofJson
      split <;> rfl
    | _ => rfl

end Value

end HeadUnit
