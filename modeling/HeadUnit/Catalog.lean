import HeadUnit.Catalog.VehicleData

/-!
# The catalog as a whole

Every table of the catalog can be checked at once, before any message is read.
-/

namespace HeadUnit

namespace Layout

/-- The handles of a layout's members. -/
def handles : Layout → List Handle
  | .nil => []
  | .cons _ handle _ rest => handle :: rest.handles

end Layout

namespace WireType

/-- The handles of a record's members. -/
def handles : WireType → List Handle
  | .record _ layout => layout.handles
  | _ => []

end WireType

namespace MessageType

/-- The handles of a message's members. -/
def handles (m : MessageType) : List Handle :=
  match m.body with
  | .fixed layout => layout.handles
  | .registered registry => registry.entries.map Entry.toHandle

end MessageType

namespace Catalog

/-- The fields of records and of messages with fixed parameters. -/
def handles : List Handle :=
  records.flatMap WireType.handles ++ fixedMessages.flatMap MessageType.handles

/-- Whether all tables are in order: the registry, the keys of records and messages, and the
vocabularies. -/
def validate : Except Error Unit := do
  vehicleData.validate
  handles.forM fun h => h.keys.validate
  functions.validate
  vocabularies.forM Vocabulary.validate

end Catalog

end HeadUnit
