import HeadUnit.WireType

/-!
# Fields

A field is a handle for data of one wire type. Reading never fails: a missing key and a value of
another form both read as nothing. Writing nothing removes the key.

## Main definitions

* `Params.read`, `Params.write` — one datum under a key.
* `Params.readList`, `Params.writeList`, `Params.readNested`, `Params.writeStruct` — lists and
  nested parameters, with a reader or writer of the caller's.
* `Field` — a handle with the type of its data.
-/

namespace HeadUnit

namespace Params

/-- The datum under `key`, if it is there in the right form. -/
def read (p : Params) (t : WireType) (key : String) (v : Version) : Option t.Carrier :=
  (p.get? key).bind (t.decode v)

/-- Put a datum under `key`, or remove the key. -/
def write (p : Params) (t : WireType) (key : String) (datum : Option t.Carrier) (v : Version) :
    Params :=
  match datum with
  | some x => p.set key (t.encode v x)
  | none => p.remove key

variable {α : Type}

/-- The elements of the list under `key` that `element` can read. -/
def readList (p : Params) (key : String) (element : Value → Option α) : Option (List α) :=
  ((p.get? key).bind Value.asList?).map fun items => items.filterMap element

def writeList (p : Params) (key : String) (items : Option (List α)) (element : α → Value) :
    Params :=
  match items with
  | some items => p.set key (.list (items.map element))
  | none => p.remove key

/-- The parameters nested under `key`. -/
def readStruct (p : Params) (key : String) : Option Params :=
  (p.get? key).bind ofValue?

/-- What `decode` finds in the parameters nested under `key`. -/
def readNested (p : Params) (key : String) (decode : Params → Option α) : Option α :=
  (p.readStruct key).bind decode

def writeStruct (p : Params) (key : String) (nested : Option Params) : Params :=
  match nested with
  | some q => p.set key q.toValue
  | none => p.remove key

end Params

/-- A handle for data of type `t`. -/
structure Field (t : WireType) extends Handle

namespace Field

variable {t : WireType}

/-- A field whose key never changes. -/
def fixed (t : WireType) (id key : String) : Field t :=
  { id := id, keys := .fixed key }

def kind (_ : Field t) : Kind :=
  t.kind

def key (f : Field t) (v : Version) : String :=
  f.toHandle.key v

def read (f : Field t) (p : Params) (v : Version) : Option t.Carrier :=
  p.read t (f.key v) v

def write (f : Field t) (p : Params) (datum : Option t.Carrier) (v : Version) : Params :=
  p.write t (f.key v) datum v

def decode (_ : Field t) (raw : Value) (v : Version) : Option t.Carrier :=
  t.decode v raw

def encode (_ : Field t) (datum : t.Carrier) (v : Version) : Value :=
  t.encode v datum

end Field

end HeadUnit
