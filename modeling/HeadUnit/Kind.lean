/-!
# Kinds of fields

The kind of a field says what form its value has on the wire. Vocabularies and records are told
apart by their names alone.
-/

namespace HeadUnit

inductive Kind where
  | bool
  | integer
  | float
  | text
  | vocabulary (name : String)
  | record (name : String)
  | list (item : Kind)
deriving DecidableEq, Repr

namespace Kind

def label : Kind → String
  | .bool => "bool"
  | .integer => "integer"
  | .float => "float"
  | .text => "text"
  | .vocabulary name => "enum " ++ name
  | .record name => "struct " ++ name
  | .list item => "list of " ++ item.label

end Kind

end HeadUnit
