import HeadUnit.Proofs.Json.RoundTrip
import HeadUnit.Proofs.Value.RoundTrip

/-!
# Trees through values

The value of a tree has no place for a null member, and none for an integer beyond the signed
words. So the tree of that value is the old tree without its null members and with the nearest
double for each of these integers; nothing else changes.

## Main definitions

* `Json.withoutNulls` — the tree without the null members of its objects.
* `Json.widened` — the tree with doubles for the integers beyond the signed words.

## Main statements

* `Json.abs_sub_magnitude_ofInt_le` — the double that takes an integer's place is the nearest one.
* `Value.toJson_ofJson` — what a tree is after it was a value.
* `Params.toJson_ofMembers` — the same for the members of an object.
-/

namespace HeadUnit

namespace Json

mutual

/-- The tree without the null members of its objects. Null items of arrays stay. -/
def withoutNulls : Json → Json
  | .array items => .array (withoutNullsItems items)
  | .object members => .object (withoutNullsMembers members)
  | json => json

def withoutNullsItems : List Json → List Json
  | [] => []
  | item :: rest => item.withoutNulls :: withoutNullsItems rest

def withoutNullsMembers : List (String × Json) → List (String × Json)
  | [] => []
  | (key, value) :: rest =>
    if value.isNull then withoutNullsMembers rest
    else (key, value.withoutNulls) :: withoutNullsMembers rest

end

mutual

/-- The tree with the nearest double for each integer above the signed words. -/
def widened : Json → Json
  | .integer n low high =>
    if n < 0x8000000000000000 then .integer n low high else .ofFloat (.ofInt n)
  | .array items => .array (widenedItems items)
  | .object members => .object (widenedMembers members)
  | json => json

def widenedItems : List Json → List Json
  | [] => []
  | item :: rest => item.widened :: widenedItems rest

def widenedMembers : List (String × Json) → List (String × Json)
  | [] => []
  | (key, value) :: rest => (key, value.widened) :: widenedMembers rest

end

/-- No double is nearer to such an integer than the one that takes its place. -/
theorem abs_sub_magnitude_ofInt_le {n : Int} (hn : 0x8000000000000000 ≤ n)
    (high : n < 0x10000000000000000) {y : Binary64} (hy : y.isFinite = true) :
    |(n : ℚ) - (Binary64.ofInt n).magnitude| ≤ |(n : ℚ) - y.magnitude| := by
  obtain ⟨m, rfl⟩ := Int.eq_ofNat_of_zero_le (by omega : 0 ≤ n)
  have hofInt : Binary64.ofInt m = .ofNat m := if_neg (by omega)
  have hle : (m : ℚ) ≤ 0x10000000000000000 := by exact_mod_cast high.le
  have hlt : (m : ℚ) < Binary64.overflow :=
    Binary64.lt_overflow_of_le (Binary64.le_ten_pow_of_le (hle.trans (by norm_num)))
  rw [hofInt, Int.cast_natCast]
  exact (Binary64.rounds_ofNat m).abs_sub_le_abs_sub hlt hy

theorem isNull_withoutNulls (json : Json) : json.withoutNulls.isNull = json.isNull := by
  cases json <;> rfl

mutual

theorem withoutNulls_withoutNulls : ∀ json : Json,
    json.withoutNulls.withoutNulls = json.withoutNulls
  | .null | .bool _ | .integer .. | .float .. | .string _ => rfl
  | .array items => congrArg array (withoutNullsItems_withoutNullsItems items)
  | .object members => congrArg object (withoutNullsMembers_withoutNullsMembers members)

theorem withoutNullsItems_withoutNullsItems : ∀ items : List Json,
    withoutNullsItems (withoutNullsItems items) = withoutNullsItems items
  | [] => rfl
  | item :: rest => by
    rw [withoutNullsItems, withoutNullsItems, withoutNulls_withoutNulls item,
      withoutNullsItems_withoutNullsItems rest]

theorem withoutNullsMembers_withoutNullsMembers : ∀ members : List (String × Json),
    withoutNullsMembers (withoutNullsMembers members) = withoutNullsMembers members
  | [] => rfl
  | (key, value) :: rest => by
    have hrest := withoutNullsMembers_withoutNullsMembers rest
    rw [withoutNullsMembers]
    split
    case isTrue => exact hrest
    case isFalse hnull =>
      rw [withoutNullsMembers, isNull_withoutNulls, if_neg hnull, withoutNulls_withoutNulls value,
        hrest]

end

/-! ## Look-up in well-formed trees -/

theorem WellFormed.get? {members : Members Json} (h : (object members).WellFormed) {key : String}
    {json : Json} (hget : Members.get? key members = some json) : json.WellFormed := by
  have hall : ∀ m ∈ members, m.2.WellFormed := by
    clear hget
    replace h := h.2
    induction members with
    | nil => exact List.forall_mem_nil _
    | cons m rest ih => exact List.forall_mem_cons.2 ⟨h.1, ih h.2⟩
  exact hall (key, json) (Members.mem_of_get? hget)

theorem withoutNullsMembers_eq_map (members : Members Json) : withoutNullsMembers members =
    (members.filter (!·.2.isNull)).map fun m => (m.1, m.2.withoutNulls) := by
  induction members with
  | nil => rfl
  | cons m rest ih =>
    rw [withoutNullsMembers, ih, List.filter_cons]
    by_cases hnull : m.2.isNull <;> simp [hnull]

/-- Dropping the null members drops the null look-ups. -/
theorem get?_withoutNullsMembers {members : Members Json} (h : Members.Ascending members)
    (key : String) : Members.get? key (withoutNullsMembers members) =
      ((Members.get? key members).filter (!·.isNull)).map withoutNulls := by
  rw [withoutNullsMembers_eq_map, Members.get?_map,
    Members.get?_filter_value h.nodup_keys (!·.isNull)]

end Json

namespace Value

theorem toJson_ofJson_integer (n : Int) (low : -0x8000000000000000 ≤ n)
    (high : n < 0x10000000000000000) :
    (ofJson (.integer n low high)).toJson = (Json.integer n low high).widened := by
  rw [ofJson, Json.widened]
  split
  case isTrue h =>
    have hword : (Int64.ofInt n).toInt = n := Int64.toInt_ofInt_of_le low h
    rw [toJson, hword]
    exact dif_pos ⟨low, high⟩
  case isFalse => rfl

mutual

/-- A tree comes back from its value without its null members, and with doubles for the integers
beyond the signed words. -/
theorem toJson_ofJson : ∀ json : Json, json.WellFormed →
    (ofJson json).toJson = json.withoutNulls.widened
  | .null, _ | .bool _, _ | .string _, _ => rfl
  | .integer n low high, _ => toJson_ofJson_integer n low high
  | .float _ finite, _ => dif_pos finite
  | .array items, h => congrArg Json.array (toJsonItems_ofJsonItems items h)
  | .object members, h => by
    rw [ofJson, ofJsonMembers_eq_map h.1]
    exact congrArg Json.object (toJsonMembers_map_ofJson members h.2)

theorem toJsonItems_ofJsonItems : ∀ items : List Json, Json.WellFormedItems items →
    toJsonItems (ofJsonItems items) = Json.widenedItems (Json.withoutNullsItems items)
  | [], _ => rfl
  | item :: rest, h => by
    rw [ofJsonItems, toJsonItems, toJson_ofJson item h.1, toJsonItems_ofJsonItems rest h.2]
    rfl

theorem toJsonMembers_map_ofJson : ∀ members : List (String × Json),
    Json.WellFormedMembers members →
    toJsonMembers ((members.filter (!·.2.isNull)).map fun m => (m.1, ofJson m.2)) =
      Json.widenedMembers (Json.withoutNullsMembers members)
  | [], _ => rfl
  | (key, json) :: rest, h => by
    have hrest := toJsonMembers_map_ofJson rest h.2
    rw [List.filter_cons, Json.withoutNullsMembers]
    by_cases hnull : json.isNull
    · simpa [hnull] using hrest
    · have hpresent : (ofJson json).toJson.isNull = false := by
        rw [isNull_toJson, isAbsent_ofJson]
        exact Bool.eq_false_iff.2 hnull
      rw [toJson_ofJson json h.1] at hpresent
      simp [hnull, toJsonMembers, Json.widenedMembers, toJson_ofJson json h.1, hpresent, hrest]

end

end Value

/-- The members of an object come back from parameters in the same way. -/
theorem Params.toJson_ofMembers {members : Members Json} (h : (Json.object members).WellFormed) :
    (ofMembers members).toJson = (Json.object members).withoutNulls.widened :=
  Value.toJson_ofJson (.object members) h

end HeadUnit
