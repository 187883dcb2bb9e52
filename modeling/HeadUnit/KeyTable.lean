import HeadUnit.Error

/-!
# Wire keys by version

A field has one key on the wire, which ranges of versions may override. The first override whose
range contains the version decides.

## Main definitions

* `KeyTable`, `KeyTable.resolve` — a field's keys and the one that holds at a version.
* `KeyTable.validate` — refuses inverted ranges and ranges that overlap.
-/

namespace HeadUnit

/-- A key bound to a range of versions. -/
structure KeyOverride where
  range : Range
  key : String
deriving DecidableEq, Repr

/-- The keys of a field: its own, and those of some ranges of versions. -/
structure KeyTable where
  initial : String
  overrides : List KeyOverride
deriving DecidableEq, Repr

namespace KeyTable

/-- The same key at every version. -/
def fixed (key : String) : KeyTable :=
  ⟨key, []⟩

/-- The key that holds at `v`. -/
def resolve (t : KeyTable) (v : Version) : String :=
  match t.overrides.find? (·.range.contains v) with
  | some o => o.key
  | none => t.initial

/-- Every key of the table, the field's own first. -/
def keys (t : KeyTable) : List String :=
  t.initial :: t.overrides.map KeyOverride.key

/-- Each range has to be in order and apart from the later ones. -/
def check (initial : String) : List KeyOverride → Except Error Unit
  | [] => .ok ()
  | o :: rest =>
    if o.range.isInverted then .error (.schema (.invertedRange initial o.range))
    else match rest.find? (·.range.overlaps o.range) with
      | some other =>
        .error (.schema (.overlappingRanges initial o.key o.range other.key other.range))
      | none => check initial rest

def validate (t : KeyTable) : Except Error Unit :=
  check t.initial t.overrides

@[simp] theorem resolve_fixed (key : String) (v : Version) : (fixed key).resolve v = key := rfl

@[simp] theorem validate_fixed (key : String) : (fixed key).validate = .ok () := rfl

end KeyTable

end HeadUnit
