import HeadUnit.Proofs.Value.WellFormed

/-!
# Parameters built by changes

Parameters start empty or come from a tree, and are changed by setting and removing keys. The
values that are set may hold such parameters in turn. What can be built in this way is exactly
what is well-formed.

## Main definitions

* `Value.Built`, `Params.Built` — what can be built.

## Main statements

* `Value.built_iff_wellFormed`, `Params.built_iff_wellFormed` — what that is.
-/

namespace HeadUnit

mutual

/-- Values whose structs are built by changes. -/
inductive Value.Built : Value → Prop where
  | null : Value.Built .null
  | bool (b : Bool) : Value.Built (.bool b)
  | integer (n : Int64) : Value.Built (.integer n)
  | float (x : Binary64) : Value.Built (.float x)
  | text (s : String) : Value.Built (.text s)
  | struct {p : Params} (h : p.Built) : Value.Built (.struct p.members)
  | list {items : List Value} (h : ∀ item ∈ items, item.Built) : Value.Built (.list items)

/-- Parameters built by changes. -/
inductive Params.Built : Params → Prop where
  | empty : Params.Built .empty
  | ofJson (json : Json) : Params.Built (.ofJson json)
  | set {p : Params} (key : String) {value : Value} (h : p.Built) (hvalue : value.Built) :
    Params.Built (p.set key value)
  | remove {p : Params} (key : String) (h : p.Built) : Params.Built (p.remove key)

end

mutual

theorem Value.Built.wellFormed {value : Value} : value.Built → value.WellFormed
  | .null | .bool _ | .integer _ | .float _ | .text _ => trivial
  | .struct h => h.wellFormed
  | .list h => (Value.wellFormedItems_iff _).2 fun item hitem => (h item hitem).wellFormed

theorem Params.Built.wellFormed {p : Params} : p.Built → p.WellFormed
  | .empty => Params.wellFormed_empty
  | .ofJson json => Params.wellFormed_ofJson json
  | .set key h hvalue => h.wellFormed.set key hvalue.wellFormed
  | .remove key h => h.wellFormed.remove key

end

namespace Value

mutual

theorem WellFormed.built : ∀ {value : Value}, value.WellFormed → value.Built
  | .null, _ => .null
  | .bool b, _ => .bool b
  | .integer n, _ => .integer n
  | .float x, _ => .float x
  | .text s, _ => .text s
  | .struct members, h => .struct (built_append [] members h.1 h.2 .empty)
  | .list items, h => .list (built_of_mem items h)

theorem built_of_mem : ∀ items : List Value, WellFormedItems items → ∀ item ∈ items, item.Built
  | [], _ => List.forall_mem_nil _
  | _ :: rest, h => List.forall_mem_cons.2 ⟨h.1.built, built_of_mem rest h.2⟩

/-- In key order, each further member is set at the end of those that are placed. -/
theorem built_append : ∀ placed members : List (String × Value),
    Members.Ascending (placed ++ members) → WellFormedMembers members →
    Params.Built ⟨placed⟩ → Params.Built ⟨placed ++ members⟩
  | placed, [], _, _, hplaced => (List.append_nil placed).symm ▸ hplaced
  | placed, (key, value) :: rest, hasc, ⟨⟨habsent, hvalue⟩, hrest⟩, hplaced => by
    have hlast : ∀ k ∈ Members.keys placed, k < key := fun k hk =>
      (Members.ascending_append.1 hasc).2.2 k hk key (by simp)
    have hset : Params.set ⟨placed⟩ key value = ⟨placed ++ [(key, value)]⟩ := by
      rw [Params.set, put, habsent]
      exact congrArg Params.mk (Members.insert_eq_append value hlast)
    have hasc' : Members.Ascending (placed ++ [(key, value)] ++ rest) := by
      rwa [List.append_assoc]
    have hbuilt := built_append _ rest hasc' hrest (hset ▸ hplaced.set key hvalue.built)
    rwa [List.append_assoc] at hbuilt

end

theorem built_iff_wellFormed (value : Value) : value.Built ↔ value.WellFormed :=
  ⟨Built.wellFormed, WellFormed.built⟩

end Value

namespace Params

theorem WellFormed.built {p : Params} (h : p.WellFormed) : p.Built :=
  Value.built_append [] p.members h.1 h.2 .empty

theorem built_iff_wellFormed (p : Params) : p.Built ↔ p.WellFormed :=
  ⟨Built.wellFormed, WellFormed.built⟩

end Params

end HeadUnit
