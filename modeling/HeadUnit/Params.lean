import HeadUnit.Value

/-!
# Parameters

The parameters of a message are a map from keys to values. A key is present only while it holds a
value that is neither null nor a float without a JSON form, and keys are kept in ascending order,
so that equal maps are equal lists.

## Main definitions

* `Params`, `Params.set`, `Params.remove` — the map and its changes.
* `Params.ofJson`, `Params.toJson` — from any tree, and to an object.
-/

namespace HeadUnit

/-- Named parameter values. -/
structure Params where
  members : Members Value
deriving DecidableEq

namespace Params

def empty : Params := ⟨[]⟩

instance : Inhabited Params := ⟨empty⟩

def get? (p : Params) (key : String) : Option Value :=
  Members.get? key p.members

/-- Put `value` under `key`; a value that cannot be stored removes the key. -/
def set (p : Params) (key : String) (value : Value) : Params :=
  ⟨Value.put key value p.members⟩

def remove (p : Params) (key : String) : Params :=
  ⟨Members.erase key p.members⟩

def contains (p : Params) (key : String) : Bool :=
  (p.get? key).isSome

def keys (p : Params) : List String :=
  Members.keys p.members

def size (p : Params) : Nat :=
  p.members.length

def isEmpty (p : Params) : Bool :=
  p.members.isEmpty

/-- Set the pairs one after another. -/
def ofList (pairs : List (String × Value)) : Params :=
  pairs.foldl (fun p m => p.set m.1 m.2) empty

def toValue (p : Params) : Value :=
  .struct p.members

/-- The parameters that a value holds, if it is a struct. -/
def ofValue? (v : Value) : Option Params :=
  v.asStruct?.map Params.mk

/-! ## JSON -/

/-- The members of an object, without the null ones. -/
def ofMembers (members : Members Json) : Params :=
  ⟨Value.ofJsonMembers [] members⟩

/-- A tree that is no object has no parameters. -/
def ofJson (json : Json) : Params :=
  (json.members?.map ofMembers).getD empty

/-- The object of the parameters; no member of it is null. -/
def toJson (p : Params) : Json :=
  .object (Value.toJsonMembers p.members)

/-! ## Look-up after a change -/

theorem get?_set (p : Params) (key other : String) (value : Value) :
    (p.set key value).get? other =
      if key = other then (if value.isAbsent then none else some value) else p.get? other := by
  unfold get? set Value.put
  split <;> simp [Members.get?_erase, Members.get?_insert, *]

@[simp] theorem get?_remove (p : Params) (key other : String) :
    (p.remove key).get? other = if key = other then none else p.get? other :=
  Members.get?_erase ..

@[simp] theorem get?_empty (key : String) : empty.get? key = none := rfl

end Params

end HeadUnit
