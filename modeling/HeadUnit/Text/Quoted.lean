import HeadUnit.Text.Shown

/-!
# Quoted text and outlines

Text in double quotes for people to read: what cannot be seen is escaped by its code point, in
hexadecimal digits. Data are outlined: a constructor with its arguments in parentheses, or with
named parts in braces.

## Main definitions

* `Text.hexValue?` — the values of hexadecimal digits.
* `Text.quote` — text in quotes.
* `Text.call`, `Text.parts`, `Text.bracketed` — outlines.
-/

namespace HeadUnit.Text

/-! ## Hexadecimal digits -/

/-- The value of a hexadecimal digit of either case. -/
def hexValue? (c : Char) : Option Nat :=
  if c.isDigit then some (c.toNat - '0'.toNat)
  else if 'a' ≤ c ∧ c ≤ 'f' then some (c.toNat - 'a'.toNat + 10)
  else if 'A' ≤ c ∧ c ≤ 'F' then some (c.toNat - 'A'.toNat + 10)
  else none

/-! ## Quotes -/

/-- The code point in braces, in lower case hexadecimal digits. -/
def codePoint (c : Char) : List Char :=
  '\\' :: 'u' :: '\x7b' :: Nat.toDigits 16 c.toNat ++ ['\x7d']

/-- A character inside quotes. -/
def escape (c : Char) : List Char :=
  if c = '"' then ['\\', '"']
  else if c = '\\' then ['\\', '\\']
  else if c = '\t' then ['\\', 't']
  else if c = '\n' then ['\\', 'n']
  else if c = '\r' then ['\\', 'r']
  else if c = '\x00' then ['\\', '0']
  else if isShown c then [c]
  else codePoint c

/-- Text in double quotes. -/
def quote (s : String) : String :=
  String.ofList ('"' :: s.toList.flatMap escape ++ ['"'])

/-! ## Outlines -/

def commaSeparated (parts : List String) : String :=
  String.intercalate ", " parts

/-- `Name(a, b)` -/
def call (name : String) (arguments : List String) : String :=
  name ++ "(" ++ commaSeparated arguments ++ ")"

/-- `Name` with its parts in braces. -/
def parts (name : String) (fields : List (String × String)) : String :=
  name ++ " \x7b " ++ commaSeparated (fields.map fun (k, v) => k ++ ": " ++ v) ++ " \x7d"

/-- `[a, b]` -/
def bracketed (items : List String) : String :=
  "[" ++ commaSeparated items ++ "]"

/-- `Some(a)` or `None` -/
def optional {α : Type} (render : α → String) : Option α → String
  | some a => call "Some" [render a]
  | none => "None"

end HeadUnit.Text
