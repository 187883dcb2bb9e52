import HeadUnit.Text.Quoted
import HeadUnit.Yaml.Node

/-!
# Unsigned integers in YAML

A number may have a plus sign, and may be written in base ten, or behind `0x`, `0o` or `0b` in
another one. Digits with a leading zero are text. Only plain scalars are numbers, or literal ones
whose tag says so.
-/

namespace HeadUnit.Yaml

/-- The number of digits in a base, if it fits sixty-four bits. -/
def digits? (base : Nat) (ds : List Char) : Option Nat := do
  if ds.isEmpty then none
  let values ← ds.mapM fun c => (Text.hexValue? c).filter (· < base)
  let n := values.foldl (fun n d => n * base + d) 0
  if n < UInt64.size then some n else none

/-- The digits behind the sign of a base. -/
def based? : List Char → Option Nat
  | '0' :: 'x' :: ds => digits? 16 ds
  | '0' :: 'o' :: ds => digits? 8 ds
  | '0' :: 'b' :: ds => digits? 2 ds
  | _ => none

def hasLeadingZero : List Char → Bool
  | '0' :: _ :: _ => true
  | _ => false

def withoutPlus : List Char → List Char
  | '+' :: rest => rest
  | s => s

/-- The number that a text writes. -/
def unsigned? (s : String) : Option Nat :=
  let ds := withoutPlus s.toList
  match based? ds with
  | some n => some n
  | none => if hasLeadingZero ds then none else digits? 10 ds

def integerTag : Tag := .ofText "tag:yaml.org,2002:int"

/-- The number of a scalar. -/
def Document.unsigned? (d : Document) (node : Node) : Option Nat :=
  match d.resolve node with
  | .scalar .plain _ text => Yaml.unsigned? text
  | .scalar .literal tag text => if tag == some integerTag then Yaml.unsigned? text else none
  | _ => none

end HeadUnit.Yaml
