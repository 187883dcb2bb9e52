import HeadUnit.Proofs.Value.WellFormed

/-!
# Values through JSON trees

A well-formed value comes back from its tree as it was, but for the floats without a JSON form
that stand in its lists: they come back as null.

## Main definitions

* `Value.jsonForm`, `Params.jsonForm` — the value with null for each of these floats.

## Main statements

* `Value.ofJsonMembers_eq_map` — the value of an object, member by member.
* `Value.ofJson_toJson` — the tree of a well-formed value stands for its JSON form.
* `Params.jsonForm_eq_self_iff` — only finite parameters are their own JSON form.
* `Params.ofJson_toJson_eq_jsonForm`, `Params.ofJson_toJson` — parameters through their tree.
-/

namespace HeadUnit

/-- Every signed word has a JSON form. -/
theorem Json.ofInt_toInt (n : Int64) :
    ∃ low high, ofInt n.toInt = .integer n.toInt low high := by
  have hlow := n.le_toInt
  have hhigh := n.toInt_lt
  exact ⟨by omega, by omega, dif_pos ⟨by omega, by omega⟩⟩

namespace Value

mutual

/-- The value with null for every float that has no JSON form. -/
def jsonForm : Value → Value
  | .float x => .ofFloat x
  | .struct members => .struct (jsonFormMembers members)
  | .list items => .list (jsonFormItems items)
  | value => value

def jsonFormItems : List Value → List Value
  | [] => []
  | item :: rest => item.jsonForm :: jsonFormItems rest

def jsonFormMembers : List (String × Value) → List (String × Value)
  | [] => []
  | (key, value) :: rest => (key, value.jsonForm) :: jsonFormMembers rest

end

mutual

theorem jsonForm_eq_self : ∀ value : Value, value.IsFinite → value.jsonForm = value
  | .null, _ | .bool _, _ | .integer _, _ | .text _, _ => rfl
  | .float _, h => if_pos h
  | .struct members, h => congrArg struct (jsonFormMembers_eq_self members h)
  | .list items, h => congrArg list (jsonFormItems_eq_self items h)

theorem jsonFormItems_eq_self :
    ∀ items : List Value, IsFiniteItems items → jsonFormItems items = items
  | [], _ => rfl
  | item :: rest, h => by
    rw [jsonFormItems, jsonForm_eq_self item h.1, jsonFormItems_eq_self rest h.2]

theorem jsonFormMembers_eq_self :
    ∀ members : List (String × Value), IsFiniteMembers members → jsonFormMembers members = members
  | [], _ => rfl
  | (key, value) :: rest, h => by
    rw [jsonFormMembers, jsonForm_eq_self value h.1, jsonFormMembers_eq_self rest h.2]

end

mutual

theorem isFinite_jsonForm : ∀ value : Value, value.jsonForm.IsFinite
  | .null | .bool _ | .integer _ | .text _ => trivial
  | .float x => isFinite_ofFloat x
  | .struct members => isFinite_jsonFormMembers members
  | .list items => isFinite_jsonFormItems items

theorem isFinite_jsonFormItems : ∀ items : List Value, IsFiniteItems (jsonFormItems items)
  | [] => trivial
  | item :: rest => ⟨isFinite_jsonForm item, isFinite_jsonFormItems rest⟩

theorem isFinite_jsonFormMembers :
    ∀ members : List (String × Value), IsFiniteMembers (jsonFormMembers members)
  | [] => trivial
  | (_, value) :: rest => ⟨isFinite_jsonForm value, isFinite_jsonFormMembers rest⟩

end

mutual

/-- A value and its JSON form have the same tree. -/
theorem toJson_jsonForm : ∀ value : Value, value.jsonForm.toJson = value.toJson
  | .null | .bool _ | .integer _ | .text _ => rfl
  | .float x => by
    by_cases h : x.isFinite <;> simp [jsonForm, ofFloat, toJson, Json.ofFloat, h]
  | .struct members => congrArg Json.object (toJsonMembers_jsonFormMembers members)
  | .list items => congrArg Json.array (toJsonItems_jsonFormItems items)

theorem toJsonItems_jsonFormItems :
    ∀ items : List Value, toJsonItems (jsonFormItems items) = toJsonItems items
  | [] => rfl
  | item :: rest => by
    rw [jsonFormItems, toJsonItems, toJsonItems, toJson_jsonForm item,
      toJsonItems_jsonFormItems rest]

theorem toJsonMembers_jsonFormMembers : ∀ members : List (String × Value),
    toJsonMembers (jsonFormMembers members) = toJsonMembers members
  | [] => rfl
  | (key, value) :: rest => by
    rw [jsonFormMembers, toJsonMembers, toJsonMembers, toJson_jsonForm value,
      toJsonMembers_jsonFormMembers rest]

end

/-- Exactly the absent values have no tree but null. -/
theorem isNull_toJson (value : Value) : value.toJson.isNull = value.isAbsent := by
  cases value with
  | integer n =>
    obtain ⟨low, high, h⟩ := Json.ofInt_toInt n
    rw [toJson, h]
    rfl
  | float x => by_cases h : x.isFinite <;> simp [toJson, Json.ofFloat, Json.isNull, isAbsent, h]
  | _ => rfl

/-- Only null has an absent value. -/
theorem isAbsent_ofJson (json : Json) : (ofJson json).isAbsent = json.isNull := by
  cases json with
  | float x finite => simp [ofJson, isAbsent, Json.isNull, finite]
  | integer n low high =>
    have hfinite : (Binary64.ofInt n).isFinite = true := Binary64.isFinite_ofInt n (by omega)
    unfold ofJson
    split <;> simp [isAbsent, Json.isNull, hfinite]
  | _ => rfl

/-- The members of well-formed values all have a tree. -/
theorem keys_toJsonMembers : ∀ members : List (String × Value), WellFormedMembers members →
    Members.keys (toJsonMembers members) = Members.keys members
  | [], _ => rfl
  | (key, value) :: rest, ⟨⟨habsent, _⟩, hrest⟩ => by
    rw [toJsonMembers, isNull_toJson, habsent]
    simp [keys_toJsonMembers rest hrest]

theorem ascending_toJsonMembers {members : Members Value} (hasc : Members.Ascending members)
    (h : WellFormedMembers members) : Members.Ascending (toJsonMembers members) := by
  unfold Members.Ascending
  rw [keys_toJsonMembers members h]
  exact hasc

/-! ## The value of an object -/

/-- Each further member goes to the end of those that are placed, or nowhere if it is null. -/
theorem ofJsonMembers_eq_append {placed : Members Value} {members : Members Json}
    (h : (Members.keys placed ++ Members.keys members).Pairwise (· < ·)) :
    ofJsonMembers placed members =
      placed ++ (members.filter (!·.2.isNull)).map fun m => (m.1, ofJson m.2) := by
  induction members generalizing placed with
  | nil => exact (List.append_nil _).symm
  | cons m rest ih =>
    obtain ⟨key, json⟩ := m
    have hlast : ∀ k ∈ Members.keys placed, k < key := fun k hk =>
      (List.pairwise_append.1 h).2.2 k hk key List.mem_cons_self
    rw [ofJsonMembers, put, isAbsent_ofJson, List.filter_cons]
    by_cases hnull : json.isNull
    · have herase : Members.erase key placed = placed := by
        refine List.filter_eq_self.2 fun m hm => bne_iff_ne.2 fun he => ?_
        exact String.lt_irrefl key (he ▸ hlast m.1 (Members.mem_keys_of_mem hm))
      have hrest : (Members.keys placed ++ Members.keys rest).Pairwise (· < ·) :=
        h.sublist (List.Sublist.append_left (List.sublist_cons_self ..) _)
      rw [if_pos hnull, herase, ih hrest]
      simp [hnull]
    · have hrest : (Members.keys (placed ++ [(key, ofJson json)]) ++
          Members.keys rest).Pairwise (· < ·) := by
        simpa using h
      rw [if_neg hnull, Members.insert_eq_append _ hlast, ih hrest]
      simp [hnull]

/-- The members of an object keep their order in its value, and the null ones are left out. -/
theorem ofJsonMembers_eq_map {members : Members Json} (h : Members.Ascending members) :
    ofJsonMembers [] members =
      (members.filter (!·.2.isNull)).map fun m => (m.1, ofJson m.2) :=
  ofJsonMembers_eq_append h

theorem ofJson_ofInt_toInt (n : Int64) : ofJson (.ofInt n.toInt) = .integer n := by
  obtain ⟨low, high, h⟩ := Json.ofInt_toInt n
  have hlt := n.toInt_lt
  rw [h, ofJson, if_pos (by omega), Int64.ofInt_toInt]

theorem ofJson_ofFloat (x : Binary64) : ofJson (.ofFloat x) = ofFloat x := by
  unfold Json.ofFloat ofFloat
  split <;> rfl

mutual

/-- A well-formed value comes back with null for the floats that have no JSON form. -/
theorem ofJson_toJson : ∀ value : Value, value.WellFormed → ofJson value.toJson = value.jsonForm
  | .null, _ | .bool _, _ | .text _, _ => rfl
  | .integer n, _ => ofJson_ofInt_toInt n
  | .float x, _ => ofJson_ofFloat x
  | .struct members, h => by
    have hmembers := map_ofJson_toJsonMembers members h.2
    rw [toJson, ofJson, ofJsonMembers_eq_map (ascending_toJsonMembers h.1 h.2), hmembers, jsonForm]
  | .list items, h => congrArg list (ofJsonItems_toJsonItems items h)

theorem ofJsonItems_toJsonItems : ∀ items : List Value, WellFormedItems items →
    ofJsonItems (toJsonItems items) = jsonFormItems items
  | [], _ => rfl
  | item :: rest, h => by
    rw [toJsonItems, ofJsonItems, jsonFormItems, ofJson_toJson item h.1,
      ofJsonItems_toJsonItems rest h.2]

theorem map_ofJson_toJsonMembers : ∀ members : List (String × Value), WellFormedMembers members →
    ((toJsonMembers members).filter (!·.2.isNull)).map (fun m => (m.1, ofJson m.2)) =
      jsonFormMembers members
  | [], _ => rfl
  | (key, value) :: rest, ⟨⟨habsent, hvalue⟩, hrest⟩ => by
    have hnull : value.toJson.isNull = false := by rw [isNull_toJson, habsent]
    simp [toJsonMembers, jsonFormMembers, hnull, ofJson_toJson value hvalue,
      map_ofJson_toJsonMembers rest hrest]

end

end Value

namespace Params

/-- The parameters with null for every float that has no JSON form. -/
def jsonForm (p : Params) : Params :=
  ⟨Value.jsonFormMembers p.members⟩

theorem isFinite_jsonForm (p : Params) : p.jsonForm.IsFinite :=
  Value.isFinite_jsonFormMembers p.members

theorem jsonForm_eq_self {p : Params} (h : p.IsFinite) : p.jsonForm = p :=
  congrArg mk (Value.jsonFormMembers_eq_self p.members h)

/-- Only finite parameters are their own JSON form. -/
theorem jsonForm_eq_self_iff (p : Params) : p.jsonForm = p ↔ p.IsFinite :=
  ⟨fun h => h ▸ isFinite_jsonForm p, jsonForm_eq_self⟩

theorem toJson_jsonForm (p : Params) : p.jsonForm.toJson = p.toJson :=
  Value.toJson_jsonForm p.toValue

/-- Well-formed parameters come back with null for the floats that have no JSON form. -/
theorem ofJson_toJson_eq_jsonForm {p : Params} (h : p.WellFormed) :
    ofJson p.toJson = p.jsonForm :=
  congrArg mk (Value.struct.inj (Value.ofJson_toJson p.toValue h))

/-- Finite parameters come back from their tree as they were. -/
theorem ofJson_toJson {p : Params} (h : p.WellFormed) (hfinite : p.IsFinite) :
    ofJson p.toJson = p := by
  rw [ofJson_toJson_eq_jsonForm h, jsonForm_eq_self hfinite]

end Params

end HeadUnit
