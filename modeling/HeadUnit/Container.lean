import HeadUnit.Registry

/-!
# Containers over a registry

A container holds raw parameters at a protocol version and gives typed access to them through the
fields of a registry. A value that cannot be read counts as absent; keys that no field has are
carried along.

## Main definitions

* `Container` — parameters at a version, over a registry.
* `Container.get`, `Container.set` — typed access.
* `Container.resolved`, `Container.unregisteredKeys` — what a container holds.
* `Container.toVersion` — the same contents at another version.
-/

namespace HeadUnit

/-- Parameters at a version, read through the fields of `r`. -/
structure Container (r : Registry) where
  version : Version
  params : Params
deriving DecidableEq

namespace Container

variable {r : Registry}

/-- Nothing, at `v`. -/
def empty (r : Registry) (v : Version) : Container r :=
  ⟨v, .empty⟩

/-- The datum of a field, if the registry has the field with this kind and the stored value has
its form. The registry's key decides, not the handle's. -/
def get {t : WireType} (c : Container r) (f : Field t) : Option t.Carrier :=
  match r.entry? f.id with
  | none => none
  | some e =>
    if e.kind = t.kind then c.params.read t (e.key c.version) c.version else none

/-- Write a field, or remove it. A field that the registry lacks or has with another kind is the
caller's mistake. -/
def set {t : WireType} (c : Container r) (f : Field t) (datum : Option t.Carrier) :
    Except Error (Container r) :=
  match r.entry? f.id with
  | none => .error (.unknownField f.id)
  | some e =>
    if e.kind = t.kind then
      .ok { c with params := c.params.write t (e.key c.version) datum c.version }
    else .error (.fieldTypeMismatch f.id e.kind.label t.kind.label)

/-- The stored value of the registered field `id`. -/
def getRaw (c : Container r) (id : String) : Option Value :=
  (r.resolveKey? id c.version).bind c.params.get?

/-- The stored value of the registered field `id` as its type writes it. -/
def resolve (c : Container r) (id : String) : Option Value := do
  let e ← r.entry? id
  let raw ← c.params.get? (e.key c.version)
  e.resolve raw c.version

/-- Every registered field that is present and can be read, in the registry's order. -/
def resolved (c : Container r) : List (String × Value) :=
  r.entries.filterMap fun e => (c.resolve e.id).map (e.id, ·)

def isRegistered (c : Container r) (key : String) : Bool :=
  (r.entryForKey? key c.version).isSome

/-- Stored keys that no field has at this version. -/
def unregisteredKeys (c : Container r) : List String :=
  c.params.keys.filter fun key => !c.isRegistered key

/-! ## Conversion -/

/-- Put a stored member of a registered field to where it belongs at `w`; what cannot be read is
left out. -/
def convertMember (c : Container r) (w : Version) (p : Params) (m : String × Value) : Params :=
  match r.entryForKey? m.1 c.version with
  | none => p
  | some e =>
    match e.transcode m.2 c.version w with
    | some value => p.set (e.key w) value
    | none => p

/-- Put a stored member under its own key, unless the key is taken. -/
def carryMember (p : Params) (m : String × Value) : Params :=
  if p.contains m.1 then p else p.set m.1 m.2

/-- The same contents with the keys and names of version `w`: first the registered fields, then
the other members where there is room for them. -/
def toVersion (c : Container r) (w : Version) : Container r :=
  let registered := c.params.members.foldl (c.convertMember w) .empty
  let others := c.params.members.filter fun m => !c.isRegistered m.1
  ⟨w, others.foldl carryMember registered⟩

end Container

end HeadUnit
