import HeadUnit.Registry
import HeadUnit.Text.Quoted

/-!
# Outlines of fields

What a field and its registration look like in diagnostics.
-/

namespace HeadUnit

open Text

def Range.outline (r : Range) : String :=
  parts "VersionRange"
    [("since", toString r.first), ("until", optional (fun n => toString n) r.last)]

def KeyOverride.outline (o : KeyOverride) : String :=
  parts "KeyMapping" [("range", o.range.outline), ("key", quote o.key)]

def KeyTable.outline (t : KeyTable) : String :=
  parts "VersionedKeyTable"
    [("default", quote t.initial), ("overrides", bracketed (t.overrides.map KeyOverride.outline))]

def Kind.outline : Kind → String
  | .bool => call "Primitive" ["Bool"]
  | .integer => call "Primitive" ["Integer"]
  | .float => call "Primitive" ["Float"]
  | .text => call "Primitive" ["Text"]
  | .vocabulary name => call "Enum" [quote name]
  | .record name => call "Nested" [quote name]
  | .list item => call "ListOf" [item.outline]

/-- The identifier and the keys of a handle. -/
def Handle.outlines (h : Handle) : List (String × String) :=
  [("id", call "FieldId" [quote h.id]), ("keys", h.keys.outline)]

def Field.outline {t : WireType} (f : Field t) : String :=
  parts "Field" f.toHandle.outlines

def Entry.outline (e : Entry) : String :=
  parts "FieldEntry" (e.toHandle.outlines ++ [("kind", e.kind.outline)])

end HeadUnit
