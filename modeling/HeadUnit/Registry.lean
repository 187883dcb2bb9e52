import HeadUnit.Field

/-!
# Registries

A registry lists fields of different types. Its entries are looked up by identifier, or by the
key that they have at a version; the first match decides.

## Main definitions

* `Entry`, `Registry` — fields without a static type, and tables of them.
* `Registry.entry?`, `Registry.entryForKey?` — look-up.
* `Registry.validate` — refuses repeated identifiers, bad key tables, and keys that two fields
  share at some version.
-/

namespace HeadUnit

/-- A field whose type is data. -/
structure Entry extends Handle where
  type : WireType

namespace Entry

def key (e : Entry) (v : Version) : String :=
  e.toHandle.key v

def kind (e : Entry) : Kind :=
  e.type.kind

/-- The entry as a field of its type. -/
def field (e : Entry) : Field e.type :=
  { e.toHandle with }

/-- The value `raw` as read and written at `v`, if it has the field's form. -/
def resolve (e : Entry) (raw : Value) (v : Version) : Option Value :=
  e.type.transcode v v raw

/-- The value `raw` as read at `v` and written at `w`, if it has the field's form. -/
def transcode (e : Entry) (raw : Value) (v w : Version) : Option Value :=
  e.type.transcode v w raw

end Entry

/-- The registration of a field. -/
def Field.entry {t : WireType} (f : Field t) : Entry :=
  { f.toHandle with type := t }

/-- A table of fields. -/
structure Registry where
  name : String
  entries : List Entry

namespace Registry

def size (r : Registry) : Nat :=
  r.entries.length

def isEmpty (r : Registry) : Bool :=
  r.entries.isEmpty

/-- The entry registered as `id`. -/
def entry? (r : Registry) (id : String) : Option Entry :=
  r.entries.find? (·.id == id)

/-- The key that the field `id` has at `v`. -/
def resolveKey? (r : Registry) (id : String) (v : Version) : Option String :=
  (r.entry? id).map (·.key v)

/-- The entry whose key at `v` is `key`. -/
def entryForKey? (r : Registry) (key : String) (v : Version) : Option Entry :=
  r.entries.find? (·.key v == key)

/-! ## Validation -/

/-- Each field needs an identifier that no earlier one has, and a valid key table. -/
def checkFields (name : String) (seen : List String) : List Entry → Except Error Unit
  | [] => .ok ()
  | e :: rest =>
    if seen.contains e.id then .error (.schema (.repeatedField name e.id))
    else do
      e.keys.validate
      checkFields name (e.id :: seen) rest

/-- Each field needs a key at `v` that no earlier one has. -/
def checkKeys (name : String) (v : Version) (seen : List String) :
    List Entry → Except Error Unit
  | [] => .ok ()
  | e :: rest =>
    if seen.contains (e.key v) then .error (.schema (.sharedKey name (e.key v) v))
    else checkKeys name v (e.key v :: seen) rest

def validate (r : Registry) : Except Error Unit := do
  checkFields r.name [] r.entries
  Version.all.forM fun v => checkKeys r.name v [] r.entries

end Registry

end HeadUnit
