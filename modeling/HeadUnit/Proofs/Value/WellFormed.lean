import HeadUnit.Params
import HeadUnit.Proofs.Binary64.Finite
import HeadUnit.Proofs.Members.Ascending

/-!
# Well-formed values

The structs inside a value are maps: their keys ascend and no member is absent. `Value.put` keeps
this, so every value that is built from a JSON tree or by writing parameters has it. A value of a
tree also holds no float without a JSON form.

## Main definitions

* `Value.WellFormed`, `Params.WellFormed` — every struct ascends and has no absent member.
* `Value.IsFinite`, `Params.IsFinite` — no float of the value is infinite or a NaN.

## Main statements

* `Value.wellFormed_put`, `Value.isFinite_put` — a change of a member keeps both.
* `Params.wellFormed_ofJson`, `Params.isFinite_ofJson` — both hold of what is decoded.
* `Params.eq_of_get?_eq` — well-formed parameters are determined by look-up.
-/

namespace HeadUnit

namespace Value

mutual

/-- Every struct of the value has ascending keys and no absent member. -/
def WellFormed : Value → Prop
  | .struct members => Members.Ascending members ∧ WellFormedMembers members
  | .list items => WellFormedItems items
  | _ => True

def WellFormedItems : List Value → Prop
  | [] => True
  | item :: rest => item.WellFormed ∧ WellFormedItems rest

def WellFormedMembers : List (String × Value) → Prop
  | [] => True
  | (_, value) :: rest => (value.isAbsent = false ∧ value.WellFormed) ∧ WellFormedMembers rest

end

mutual

/-- No float of the value is infinite or a NaN. -/
def IsFinite : Value → Prop
  | .float x => x.isFinite = true
  | .struct members => IsFiniteMembers members
  | .list items => IsFiniteItems items
  | _ => True

def IsFiniteItems : List Value → Prop
  | [] => True
  | item :: rest => item.IsFinite ∧ IsFiniteItems rest

def IsFiniteMembers : List (String × Value) → Prop
  | [] => True
  | (_, value) :: rest => value.IsFinite ∧ IsFiniteMembers rest

end

theorem wellFormedItems_iff (items : List Value) :
    WellFormedItems items ↔ ∀ item ∈ items, item.WellFormed := by
  induction items with
  | nil => simp [WellFormedItems]
  | cons item rest ih => simp [WellFormedItems, ih]

theorem wellFormedMembers_iff (members : Members Value) :
    WellFormedMembers members ↔ ∀ m ∈ members, m.2.isAbsent = false ∧ m.2.WellFormed := by
  induction members with
  | nil => simp [WellFormedMembers]
  | cons m rest ih =>
    rw [WellFormedMembers, ih, List.forall_mem_cons]

theorem isFiniteItems_iff (items : List Value) :
    IsFiniteItems items ↔ ∀ item ∈ items, item.IsFinite := by
  induction items with
  | nil => simp [IsFiniteItems]
  | cons item rest ih => simp [IsFiniteItems, ih]

theorem isFiniteMembers_iff (members : Members Value) :
    IsFiniteMembers members ↔ ∀ m ∈ members, m.2.IsFinite := by
  induction members with
  | nil => simp [IsFiniteMembers]
  | cons m rest ih =>
    rw [IsFiniteMembers, ih, List.forall_mem_cons]

theorem isFinite_ofFloat (x : Binary64) : (ofFloat x).IsFinite := by
  unfold ofFloat
  split
  case isTrue h => exact h
  case isFalse => trivial

/-! ## Changes of a member -/

theorem ascending_put {members : Members Value} (key : String) (value : Value)
    (h : Members.Ascending members) : Members.Ascending (put key value members) := by
  unfold put
  split
  · exact Members.ascending_erase key h
  · exact Members.ascending_insert key value h

theorem mem_insert {key : String} {value : Value} {members : Members Value} {m : String × Value}
    (h : m ∈ Members.insert key value members) : m = (key, value) ∨ m ∈ members := by
  fun_induction Members.insert key value members <;> grind

theorem mem_put {key : String} {value : Value} {members : Members Value} {m : String × Value}
    (h : m ∈ put key value members) :
    m = (key, value) ∧ value.isAbsent = false ∨ m ∈ members := by
  unfold put at h
  split at h
  case isTrue => exact .inr ((List.mem_filter.1 h).1)
  case isFalse ha =>
    rcases mem_insert h with rfl | hm
    · exact .inl ⟨rfl, Bool.eq_false_iff.2 ha⟩
    · exact .inr hm

theorem wellFormed_put {members : Members Value} (key : String) {value : Value}
    (hv : value.WellFormed) (h : (struct members).WellFormed) :
    (struct (put key value members)).WellFormed := by
  refine ⟨ascending_put key value h.1, (wellFormedMembers_iff _).2 fun m hm => ?_⟩
  rcases mem_put hm with ⟨rfl, ha⟩ | hm
  · exact ⟨ha, hv⟩
  · exact (wellFormedMembers_iff _).1 h.2 m hm

theorem isFinite_put {members : Members Value} (key : String) {value : Value}
    (hv : value.IsFinite) (h : (struct members).IsFinite) :
    (struct (put key value members)).IsFinite := by
  refine (isFiniteMembers_iff _).2 fun m hm => ?_
  rcases mem_put hm with ⟨rfl, -⟩ | hm
  · exact hv
  · exact (isFiniteMembers_iff _).1 h m hm

/-! ## Values of JSON trees -/

mutual

theorem wellFormed_ofJson : ∀ json : Json, (ofJson json).WellFormed
  | .null | .bool _ | .float .. | .string _ => trivial
  | .integer .. => by
    unfold ofJson
    split <;> trivial
  | .array items => wellFormed_ofJsonItems items
  | .object members => wellFormed_ofJsonMembers [] members ⟨.nil, trivial⟩

theorem wellFormed_ofJsonItems : ∀ items : List Json, WellFormedItems (ofJsonItems items)
  | [] => trivial
  | item :: rest => ⟨wellFormed_ofJson item, wellFormed_ofJsonItems rest⟩

theorem wellFormed_ofJsonMembers : ∀ (placed : Members Value) (members : List (String × Json)),
    (struct placed).WellFormed → (struct (ofJsonMembers placed members)).WellFormed
  | _, [], h => h
  | _, (key, json) :: rest, h =>
    wellFormed_ofJsonMembers _ rest (wellFormed_put key (wellFormed_ofJson json) h)

end

mutual

theorem isFinite_ofJson : ∀ json : Json, (ofJson json).IsFinite
  | .null | .bool _ | .string _ => trivial
  | .float _ finite => finite
  | .integer n low high => by
    unfold ofJson
    split
    · trivial
    · exact Binary64.isFinite_ofInt n (by omega)
  | .array items => isFinite_ofJsonItems items
  | .object members => isFinite_ofJsonMembers [] members trivial

theorem isFinite_ofJsonItems : ∀ items : List Json, IsFiniteItems (ofJsonItems items)
  | [] => trivial
  | item :: rest => ⟨isFinite_ofJson item, isFinite_ofJsonItems rest⟩

theorem isFinite_ofJsonMembers : ∀ (placed : Members Value) (members : List (String × Json)),
    (struct placed).IsFinite → (struct (ofJsonMembers placed members)).IsFinite
  | _, [], h => h
  | _, (key, json) :: rest, h =>
    isFinite_ofJsonMembers _ rest (isFinite_put key (isFinite_ofJson json) h)

end

end Value

namespace Params

variable {p q : Params}

/-- Keys ascend and no member is absent, here and in every nested struct. -/
def WellFormed (p : Params) : Prop :=
  p.toValue.WellFormed

/-- No float of the parameters is infinite or a NaN. -/
def IsFinite (p : Params) : Prop :=
  p.toValue.IsFinite

theorem wellFormed_empty : empty.WellFormed :=
  ⟨.nil, trivial⟩

theorem isFinite_empty : empty.IsFinite :=
  trivial

theorem WellFormed.set (h : p.WellFormed) (key : String) {value : Value}
    (hv : value.WellFormed) : (p.set key value).WellFormed :=
  Value.wellFormed_put key hv h

theorem IsFinite.set (h : p.IsFinite) (key : String) {value : Value} (hv : value.IsFinite) :
    (p.set key value).IsFinite :=
  Value.isFinite_put key hv h

/-- Removing a key is writing null under it. -/
theorem remove_eq_set_null (p : Params) (key : String) : p.remove key = p.set key .null := rfl

theorem WellFormed.remove (h : p.WellFormed) (key : String) : (p.remove key).WellFormed := by
  rw [remove_eq_set_null]
  exact h.set key trivial

theorem IsFinite.remove (h : p.IsFinite) (key : String) : (p.remove key).IsFinite := by
  rw [remove_eq_set_null]
  exact h.set key trivial

theorem wellFormed_ofJson (json : Json) : (ofJson json).WellFormed := by
  cases json with
  | object members => exact Value.wellFormed_ofJson (.object members)
  | _ => exact wellFormed_empty

theorem isFinite_ofJson (json : Json) : (ofJson json).IsFinite := by
  cases json with
  | object members => exact Value.isFinite_ofJson (.object members)
  | _ => exact isFinite_empty

theorem WellFormed.get? (h : p.WellFormed) {key : String} {value : Value}
    (hget : p.get? key = some value) : value.isAbsent = false ∧ value.WellFormed :=
  (Value.wellFormedMembers_iff _).1 h.2 (key, value) (Members.mem_of_get? hget)

theorem IsFinite.get? (h : p.IsFinite) {key : String} {value : Value}
    (hget : p.get? key = some value) : value.IsFinite :=
  (Value.isFiniteMembers_iff _).1 h (key, value) (Members.mem_of_get? hget)

theorem mem_keys_iff (p : Params) (key : String) : key ∈ p.keys ↔ p.get? key ≠ none := by
  rw [keys, ← Members.get?_isSome_iff, Option.isSome_iff_ne_none]
  rfl

/-- Well-formed parameters are determined by look-up. -/
theorem eq_of_get?_eq (hp : p.WellFormed) (hq : q.WellFormed)
    (h : ∀ key, p.get? key = q.get? key) : p = q := by
  cases p
  cases q
  congr 1
  exact Members.eq_of_get?_eq hp.1 hq.1 h

end Params

end HeadUnit
