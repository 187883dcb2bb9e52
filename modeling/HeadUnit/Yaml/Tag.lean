import HeadUnit.Text.Quoted
import HeadUnit.Yaml.Place

/-!
# YAML tags

A tag is a URI. It is written in whole, or as a suffix behind a handle that stands for the
beginning. A `%` with two digits is an escaped octet; the octets of one character follow each
other. A zero octet ends the part that it stands in.

## Main definitions

* `Yaml.Tag` — the octets of a tag.
* `Yaml.uri?` — the URI at the front of a text.
* `Yaml.tagParts?` — the tag at the front of a text by its handle and its suffix.
-/

namespace HeadUnit.Yaml

abbrev Tag := List UInt8

/-- The tag that a text writes without escapes. -/
def Tag.ofText (s : String) : Tag :=
  s.toUTF8.data.toList

/-- A character of anchors, handles and the names of directives. -/
def isNameChar (c : Char) : Bool :=
  c.isAlphanum || c == '-' || c == '_'

/-! ## URIs -/

/-- A character that stands for itself in a URI; `flowMarks` admits the marks of flow collections,
which elsewhere end it. -/
def isUriChar (flowMarks : Bool) (c : Char) : Bool :=
  isNameChar c || ";/?:@&=+$.!~*'()".toList.contains c ||
    (flowMarks && (c == ',' || c == '[' || c == ']'))

def octet? (a b : Char) : Option Nat := do
  let a ← Text.hexValue? a
  let b ← Text.hexValue? b
  some (a * 16 + b)

/-- How many octets follow the first one of a character. -/
def followers? (octet : Nat) : Option Nat :=
  if octet < 0x80 then some 0
  else if octet < 0xc0 then none
  else if octet < 0xe0 then some 1
  else if octet < 0xf0 then some 2
  else if octet < 0xf8 then some 3
  else none

/-- How many octets of a character follow, where `awaited` ones had to. -/
def awaitedAfter? (awaited octet : Nat) : Option Nat :=
  if awaited = 0 then followers? octet
  else if 0x80 ≤ octet ∧ octet < 0xc0 then some (awaited - 1)
  else none

/-- The octets at the front of a text and what follows them, where `awaited` octets of a character
have to come first. -/
def octets? (flowMarks : Bool) : (awaited : Nat) → List Char → Option (List UInt8 × List Char)
  | awaited, '%' :: a :: b :: rest => do
    let octet ← octet? a b
    let awaited ← awaitedAfter? awaited octet
    (octets? flowMarks awaited rest).map fun (octets, rest) => (octet.toUInt8 :: octets, rest)
  | awaited, c :: rest =>
    if awaited ≠ 0 || c == '%' then none
    else if isUriChar flowMarks c then
      (octets? flowMarks 0 rest).map fun (octets, rest) => (c.toNat.toUInt8 :: octets, rest)
    else some ([], c :: rest)
  | awaited, [] => if awaited = 0 then some ([], []) else none

/-- The octets in front of the first zero. -/
def beforeZero (octets : List UInt8) : Tag :=
  octets.takeWhile (· != 0)

/-- The URI at the front of a text, and what follows it. -/
def uri? (flowMarks : Bool) (s : List Char) : Option (Tag × List Char) := do
  let (octets, rest) ← octets? flowMarks 0 s
  if octets.isEmpty then none else some (beforeZero octets, rest)

/-! ## Handles -/

/-- A handle with a mark at both of its ends, and what follows it. -/
def namedHandle? : List Char → Option (String × List Char)
  | '!' :: rest =>
    let name := rest.takeWhile isNameChar
    match rest.drop name.length with
    | '!' :: rest => some (String.ofList ('!' :: name ++ ['!']), rest)
    | _ => none
  | _ => none

/-- A handle with a name, or the mark alone. -/
def handle? (s : List Char) : Option (String × List Char) :=
  match namedHandle? s, s with
  | some handle, _ => some handle
  | none, '!' :: rest => some ("!", rest)
  | _, _ => none

/-! ## Tags -/

/-- The suffix of a tag without a named handle. A mark alone is a whole tag. -/
def localTag? (s : List Char) : Option (String × Tag × List Char) := do
  let (octets, rest) ← octets? false 0 s
  match beforeZero octets with
  | [] => some ("", .ofText "!", rest)
  | suffix => some ("!", suffix, rest)

/-- The handle and the suffix of the tag at the front of a text, and what follows it. A tag that
is written in whole has an empty handle. -/
def tagParts? (s : List Char) : Option (String × Tag × List Char) :=
  match s with
  | '!' :: '<' :: rest => do
    let (uri, rest) ← uri? true rest
    match rest with
    | '>' :: rest => some ("", uri, rest)
    | _ => none
  | '!' :: rest =>
    match namedHandle? s with
    | some (handle, rest) => (uri? false rest).map fun (suffix, rest) => (handle, suffix, rest)
    | none => localTag? rest
  | _ => none

end HeadUnit.Yaml
