import HeadUnit.KeyTable
import HeadUnit.Kind
import HeadUnit.Params
import HeadUnit.Vocabulary

/-!
# Wire types

A wire type describes how a typed datum travels: as a number of some width, as text, as a word of
a vocabulary, as a record of optional members, or as a list. Decoding is total and never coerces:
a value of another form is no datum, an unreadable member of a record is missing, and an
unreadable element of a list is skipped.

## Main definitions

* `WireType`, `Layout` — descriptions of data and of the members of a record.
* `WireType.Carrier`, `Layout.Carrier` — the data that a description stands for.
* `WireType.decode`, `WireType.encode` — between values and data, at a version.
-/

namespace HeadUnit

/-- A field's identifier inside the program with its keys on the wire. -/
structure Handle where
  id : String
  keys : KeyTable
deriving DecidableEq, Repr

namespace Handle

def key (h : Handle) (v : Version) : String :=
  h.keys.resolve v

end Handle

mutual

/-- How a typed datum travels. -/
inductive WireType where
  | bool
  | int64
  | int32
  | uint32
  | float
  | text
  | word (table : Vocabulary)
  | record (name : String) (layout : Layout)
  | list (item : WireType)

/-- The members of a record in order: a label inside the program, a handle, and a type. -/
inductive Layout where
  | nil
  | cons (label : String) (handle : Handle) (type : WireType) (rest : Layout)

end

/-! ## Data -/

mutual

/-- The data of a wire type. -/
@[reducible] def WireType.Carrier : WireType → Type
  | .bool => Bool
  | .int64 => Int64
  | .int32 => Int32
  | .uint32 => UInt32
  | .float => Binary64
  | .text => String
  | .word table => table.Word
  | .record _ layout => layout.Carrier
  | .list item => List item.Carrier

/-- A datum or nothing for each member of a layout. -/
@[reducible] def Layout.Carrier : Layout → Type
  | .nil => Unit
  | .cons _ _ type rest => Option type.Carrier × rest.Carrier

end

mutual

/-- Data are equal if they are built alike; floats compare by bit pattern. -/
def WireType.decEq : (t : WireType) → DecidableEq t.Carrier
  | .bool => inferInstanceAs (DecidableEq Bool)
  | .int64 => inferInstanceAs (DecidableEq Int64)
  | .int32 => inferInstanceAs (DecidableEq Int32)
  | .uint32 => inferInstanceAs (DecidableEq UInt32)
  | .float => inferInstanceAs (DecidableEq Binary64)
  | .text => inferInstanceAs (DecidableEq String)
  | .word table => inferInstanceAs (DecidableEq table.Word)
  | .record _ layout => layout.decEq
  | .list item => have := item.decEq; inferInstanceAs (DecidableEq (List item.Carrier))

def Layout.decEq : (l : Layout) → DecidableEq l.Carrier
  | .nil => inferInstanceAs (DecidableEq Unit)
  | .cons _ _ type rest =>
    have := type.decEq
    have := rest.decEq
    inferInstanceAs (DecidableEq (Option type.Carrier × rest.Carrier))

end

instance (t : WireType) : DecidableEq t.Carrier := t.decEq

instance (l : Layout) : DecidableEq l.Carrier := l.decEq

/-- The kind that a field of this type has. -/
def WireType.kind : WireType → Kind
  | .bool => .bool
  | .int64 | .int32 | .uint32 => .integer
  | .float => .float
  | .text => .text
  | .word table => .vocabulary table.name
  | .record name _ => .record name
  | .list item => .list item.kind

/-! ## Decoding and encoding -/

/-- The word of thirty-two signed bits with the value of `n`, if there is one. -/
def int32Of? (n : Int64) : Option Int32 :=
  if -0x80000000 ≤ n.toInt ∧ n.toInt < 0x80000000 then some (.ofInt n.toInt) else none

/-- The word of thirty-two unsigned bits with the value of `n`, if there is one. -/
def uint32Of? (n : Int64) : Option UInt32 :=
  if 0 ≤ n.toInt ∧ n.toInt < 0x100000000 then some (.ofNat n.toInt.toNat) else none

mutual

/-- The datum that a value holds at `v`, if the value has the right form. -/
def WireType.decode (v : Version) : (t : WireType) → Value → Option t.Carrier
  | .bool, value => value.asBool?
  | .int64, value => value.asInt?
  | .int32, value => value.asInt?.bind int32Of?
  | .uint32, value => value.asInt?.bind uint32Of?
  | .float, value => value.asFloat?
  | .text, value => value.asText?
  | .word table, value => value.asText?.bind (table.ofWireName? v)
  | .record _ layout, value => (Params.ofValue? value).map (layout.decode v)
  | .list item, value => value.asList?.map fun items => items.filterMap (item.decode v)

/-- The members that the parameters hold at `v`. -/
def Layout.decode (v : Version) : (l : Layout) → Params → l.Carrier
  | .nil, _ => ()
  | .cons _ handle type rest, p =>
    ((p.get? (handle.key v)).bind (type.decode v), rest.decode v p)

end

mutual

/-- The value of a datum at `v`. -/
def WireType.encode (v : Version) : (t : WireType) → t.Carrier → Value
  | .bool, b => .bool b
  | .int64, n => .integer n
  | .int32, n => .integer n.toInt64
  | .uint32, n => .integer (.ofInt n.toNat)
  | .float, x => .ofFloat x
  | .text, s => .text s
  | .word table, w => .text (table.wireName v w)
  | .record _ layout, members => (layout.write v members .empty).toValue
  | .list item, items => .list (items.map (item.encode v))

/-- The parameters with the members written to them one after another; a missing member removes
its key. -/
def Layout.write (v : Version) : (l : Layout) → l.Carrier → Params → Params
  | .nil, _, p => p
  | .cons _ handle type rest, (datum, others), p =>
    rest.write v others <|
      match datum with
      | some x => p.set (handle.key v) (type.encode v x)
      | none => p.remove (handle.key v)

end

/-- The parameters of the members alone. -/
def Layout.encode (v : Version) (l : Layout) (members : l.Carrier) : Params :=
  l.write v members .empty

/-- The value `raw` as read at `v` and written at `w`, if it has the right form. -/
def WireType.transcode (t : WireType) (v w : Version) (raw : Value) : Option Value :=
  (t.decode v raw).map (t.encode w)

end HeadUnit
