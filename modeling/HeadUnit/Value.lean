import HeadUnit.Json

/-!
# Parameter values

A value is a JSON tree in the form that messages use it: numbers are signed words or doubles,
and objects hold only members that are present. A member is present while its value is neither
null nor a float without a JSON form; list elements may be either.

## Main definitions

* `Value` — values, with equality by bit pattern on floats.
* `Value.put` — a member's value in an object, or its removal.
* `Value.ofJson`, `Value.toJson` — the value of a tree and the tree of a value; both are total.
-/

namespace HeadUnit

/-- One parameter value. The members of a struct are meant to be in ascending key order. -/
inductive Value where
  | null
  | bool (b : Bool)
  | integer (n : Int64)
  | float (x : Binary64)
  | text (s : String)
  | struct (members : List (String × Value))
  | list (items : List Value)
deriving Inhabited

namespace Value

/-! ## Equality -/

mutual

def beq : Value → Value → Bool
  | .null, .null => true
  | .bool a, .bool b => a == b
  | .integer a, .integer b => a == b
  | .float a, .float b => decide (a = b)
  | .text a, .text b => a == b
  | .struct a, .struct b => beqMembers a b
  | .list a, .list b => beqItems a b
  | _, _ => false

def beqItems : List Value → List Value → Bool
  | [], [] => true
  | a :: as, b :: bs => beq a b && beqItems as bs
  | _, _ => false

def beqMembers : List (String × Value) → List (String × Value) → Bool
  | [], [] => true
  | (k, a) :: as, (l, b) :: bs => k == l && beq a b && beqMembers as bs
  | _, _ => false

end

mutual

theorem beq_iff : ∀ a b : Value, beq a b = true ↔ a = b
  | .null, b | .bool _, b | .integer _, b | .float _, b | .text _, b => by
    cases b <;> simp [beq]
  | .struct a, b => by cases b <;> simp [beq, beqMembers_iff a]
  | .list a, b => by cases b <;> simp [beq, beqItems_iff a]

theorem beqItems_iff : ∀ as bs : List Value, beqItems as bs = true ↔ as = bs
  | [], bs => by cases bs <;> simp [beqItems]
  | a :: as, bs => by cases bs <;> simp [beqItems, beq_iff a, beqItems_iff as]

theorem beqMembers_iff :
    ∀ as bs : List (String × Value), beqMembers as bs = true ↔ as = bs
  | [], bs => by cases bs <;> simp [beqMembers]
  | (k, a) :: as, bs => by
    cases bs <;> simp [beqMembers, beq_iff a, beqMembers_iff as, Prod.ext_iff]

end

instance : DecidableEq Value := fun a b =>
  decidable_of_iff (beq a b = true) (beq_iff a b)

/-! ## Views -/

def isNull : Value → Bool
  | .null => true
  | _ => false

def asBool? : Value → Option Bool
  | .bool b => some b
  | _ => none

def asInt? : Value → Option Int64
  | .integer n => some n
  | _ => none

/-- Integers widen to floats: JSON does not tell `5` from `5.0` reliably. -/
def asFloat? : Value → Option Binary64
  | .integer n => some (.ofInt n.toInt)
  | .float x => some x
  | _ => none

def asText? : Value → Option String
  | .text s => some s
  | _ => none

def asList? : Value → Option (List Value)
  | .list items => some items
  | _ => none

def asStruct? : Value → Option (Members Value)
  | .struct members => some members
  | _ => none

/-- The name of a value's outermost form. -/
def shape : Value → String
  | .null => "null"
  | .bool _ => "bool"
  | .integer _ => "integer"
  | .float _ => "float"
  | .text _ => "text"
  | .struct _ => "struct"
  | .list _ => "list"

/-- A float, or null if it has no JSON form. -/
def ofFloat (x : Binary64) : Value :=
  if x.isFinite then .float x else .null

/-- A value that may be missing, null standing for none. -/
def ofOption : Option Value → Value
  | some v => v
  | none => .null

/-! ## Members -/

/-- Null and floats without a JSON form cannot be a member's value. -/
def isAbsent : Value → Bool
  | .null => true
  | .float x => !x.isFinite
  | _ => false

/-- `members` with `value` under `key`; a value that cannot be a member's removes the key. -/
def put (key : String) (value : Value) (members : Members Value) : Members Value :=
  if value.isAbsent then members.erase key else Members.insert key value members

/-! ## JSON -/

mutual

/-- The value of a tree. An integer above the signed words becomes the nearest float, and null
members are dropped. -/
def ofJson : Json → Value
  | .null => .null
  | .bool b => .bool b
  | .integer n _ _ => if n < 0x8000000000000000 then .integer (.ofInt n) else .float (.ofInt n)
  | .float x _ => .float x
  | .string s => .text s
  | .array items => .list (ofJsonItems items)
  | .object members => .struct (ofJsonMembers [] members)

def ofJsonItems : List Json → List Value
  | [] => []
  | item :: rest => ofJson item :: ofJsonItems rest

/-- Put the members of a tree, one after another, to those of `placed`. -/
def ofJsonMembers (placed : Members Value) : List (String × Json) → Members Value
  | [] => placed
  | (key, json) :: rest => ofJsonMembers (put key (ofJson json) placed) rest

end

mutual

/-- The tree of a value. A float without a JSON form is null, and null members are left out. -/
def toJson : Value → Json
  | .null => .null
  | .bool b => .bool b
  | .integer n => .ofInt n.toInt
  | .float x => .ofFloat x
  | .text s => .string s
  | .struct members => .object (toJsonMembers members)
  | .list items => .array (toJsonItems items)

def toJsonItems : List Value → List Json
  | [] => []
  | item :: rest => toJson item :: toJsonItems rest

def toJsonMembers : List (String × Value) → List (String × Json)
  | [] => []
  | (key, value) :: rest =>
    let json := toJson value
    if json.isNull then toJsonMembers rest else (key, json) :: toJsonMembers rest

end

end Value

end HeadUnit
