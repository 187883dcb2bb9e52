import HeadUnit.Yaml.Token

/-!
# YAML nodes

The tree of a document. A node may be given a number, and an alias elsewhere then stands for it.
Nothing stands for itself as the empty plain scalar.

## Main definitions

* `Yaml.Node` — scalars, sequences, mappings and aliases.
* `Yaml.Document` — a node with the nodes that have numbers.
* `Yaml.Document.text?`, `Yaml.Document.items?`, `Yaml.Document.members?` — a node of a document
  read as text, as a sequence, or as a mapping.
-/

namespace HeadUnit.Yaml

inductive Node where
  | scalar (style : Style) (tag : Option Tag) (text : String)
  | sequence (items : List Node)
  | mapping (members : List (Node × Node))
  | alias (number : Nat)
deriving Inhabited

namespace Node

/-- What stands where nothing is written. -/
def nothing (tag : Option Tag) : Node :=
  .scalar .plain tag ""

def isNothing : Node → Bool
  | .scalar .plain _ "" => true
  | _ => false

end Node

/-- A node and those with numbers, last first. Of several nodes with one number an alias stands
for the last. -/
structure Document where
  root : Node
  numbered : List (Nat × Node)

namespace Document

/-- The node that an alias stands for; any other node stands for itself. -/
def resolve (d : Document) : Node → Node
  | .alias number => (d.numbered.lookup number).getD (.alias number)
  | node => node

/-- The text of a scalar in any style. -/
def text? (d : Document) (node : Node) : Option String :=
  match d.resolve node with
  | .scalar _ _ text => some text
  | _ => none

/-- The items of a sequence; nothing is an empty one. -/
def items? (d : Document) (node : Node) : Option (List Node) :=
  match d.resolve node with
  | .sequence items => some items
  | node => if node.isNothing then some [] else none

/-- The members of a mapping by the texts of their keys; nothing is an empty one. No key may come
twice, and every key has to be one of `keys`. -/
def members? (d : Document) (keys : List String) (node : Node) : Option (List (String × Node)) :=
  match d.resolve node with
  | .mapping members => do
    let named ← members.mapM fun (key, value) => (d.text? key).map (·, value)
    let names := named.map Prod.fst
    if names.all keys.contains && decide names.Nodup then some named else none
  | node => if node.isNothing then some [] else none

end Document

end HeadUnit.Yaml
