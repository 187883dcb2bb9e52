import HeadUnit.Decimal.Shortest
import HeadUnit.Members

/-!
# JSON trees

A JSON number is an integer of the joint range of signed and unsigned sixty-four bit words, or a
finite double; no other number has a JSON form. Text is written compactly, object members in
their stored order.

## Main definitions

* `Json` — trees and their numbers.
* `Json.render` — the compact text of a tree.
* `Json.nesting` — how deep arrays and objects stand inside each other.
-/

namespace HeadUnit

/-- A JSON tree. The members of an object are meant to be in ascending key order. -/
inductive Json where
  | null
  | bool (b : Bool)
  | integer (n : Int) (low : -0x8000000000000000 ≤ n) (high : n < 0x10000000000000000)
  | float (x : Binary64) (finite : x.isFinite = true)
  | string (s : String)
  | array (items : List Json)
  | object (members : List (String × Json))

namespace Json

/-- The name of a tree's outermost form. -/
def shape : Json → String
  | .null => "null"
  | .bool _ => "bool"
  | .integer .. | .float .. => "number"
  | .string _ => "string"
  | .array _ => "array"
  | .object _ => "object"

def isNull : Json → Bool
  | .null => true
  | _ => false

/-- The number `n`, or `null` if it has no JSON form. -/
def ofInt (n : Int) : Json :=
  if h : -0x8000000000000000 ≤ n ∧ n < 0x10000000000000000 then .integer n h.1 h.2 else .null

/-- The number `x`, or `null` if it has no JSON form. -/
def ofFloat (x : Binary64) : Json :=
  if h : x.isFinite = true then .float x h else .null

/-- The members of an object. -/
def members? : Json → Option (Members Json)
  | .object members => some members
  | _ => none

/-! ## Nesting -/

mutual

/-- The greatest number of arrays and objects that enclose a place of the tree. -/
def nesting : Json → Nat
  | .array items => nestingItems items + 1
  | .object members => nestingMembers members + 1
  | _ => 0

def nestingItems : List Json → Nat
  | [] => 0
  | item :: rest => max item.nesting (nestingItems rest)

def nestingMembers : List (String × Json) → Nat
  | [] => 0
  | (_, value) :: rest => max value.nesting (nestingMembers rest)

end

/-! ## Compact text -/

/-- Decimal exponents from -5 to 15 are written in positional form. -/
def floatLayout : Decimal.Layout :=
  ⟨-5, 15⟩

/-- Two lower case hexadecimal digits. -/
def hexPair (n : Nat) : List Char :=
  [Nat.digitChar (n / 16 % 16), Nat.digitChar (n % 16)]

/-- A character inside quotes: the quote, the backslash and control characters below the blank
are escaped, all else stands for itself. -/
def escape (c : Char) : List Char :=
  if c = '"' then ['\\', '"']
  else if c = '\\' then ['\\', '\\']
  else if c = '\x08' then ['\\', 'b']
  else if c = '\x0c' then ['\\', 'f']
  else if c = '\n' then ['\\', 'n']
  else if c = '\r' then ['\\', 'r']
  else if c = '\t' then ['\\', 't']
  else if c.val < 0x20 then '\\' :: 'u' :: '0' :: '0' :: hexPair c.toNat
  else [c]

def quote (s : String) : List Char :=
  '"' :: s.toList.flatMap escape ++ ['"']

def renderInt (n : Int) : List Char :=
  if n < 0 then '-' :: Nat.toDigits 10 n.natAbs else Nat.toDigits 10 n.natAbs

mutual

/-- The characters of the compact text: no blanks, members in stored order. -/
def chars : Json → List Char
  | .null => ['n', 'u', 'l', 'l']
  | .bool true => ['t', 'r', 'u', 'e']
  | .bool false => ['f', 'a', 'l', 's', 'e']
  | .integer n _ _ => renderInt n
  | .float x _ => x.render floatLayout
  | .string s => quote s
  | .array [] => ['[', ']']
  | .array (item :: rest) => '[' :: item.chars ++ charsItems rest ++ [']']
  | .object [] => ['\x7b', '\x7d']
  | .object ((key, value) :: rest) =>
    '\x7b' :: quote key ++ ':' :: value.chars ++ charsMembers rest ++ ['\x7d']

/-- Further items, each after a comma. -/
def charsItems : List Json → List Char
  | [] => []
  | item :: rest => ',' :: item.chars ++ charsItems rest

/-- Further members, each after a comma. -/
def charsMembers : List (String × Json) → List Char
  | [] => []
  | (key, value) :: rest => ',' :: quote key ++ ':' :: value.chars ++ charsMembers rest

end

/-- The compact text of a tree. -/
def render (json : Json) : String :=
  String.ofList json.chars

end Json

end HeadUnit
