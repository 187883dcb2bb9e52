import HeadUnit.Text.Quoted
import HeadUnit.Yaml.Scalar.Gap

/-!
# Quoted scalars

In single quotes a quote is written twice and nothing else is escaped. In double quotes a
backslash starts an escape; before a line end it takes the line end away.
-/

namespace HeadUnit.Yaml

/-- The scalar up to its closing single quote. -/
def singleQuoted (text : List Char) (gap : Gap) : List Char → Place → Option ScalarEnd
  | [], _ => none
  | '\'' :: '\'' :: rest, p =>
    singleQuoted ('\'' :: gap.fold ++ text) .none rest (p.plus 2)
  | c :: rest, p =>
    if isSpace c then singleQuoted text (gap.add c) rest (p.after c)
    else if p.column == 0 && atDocumentMark (c :: rest) then none
    else if c == '\'' then some ⟨(gap.fold ++ text).reverse, false, rest, p.after c⟩
    else singleQuoted (c :: gap.fold ++ text) .none rest (p.after c)

/-- What is still to be read of an escape. -/
inductive Escape where
  | none
  | begun
  | digits (left : Nat) (value : Nat)

/-- The character of a one-letter escape. -/
def escapedChar? : Char → Option Char
  | '0' => some '\x00'
  | 'a' => some '\x07'
  | 'b' => some '\x08'
  | 't' => some '\t'
  | '\t' => some '\t'
  | 'n' => some '\n'
  | 'v' => some '\x0b'
  | 'f' => some '\x0c'
  | 'r' => some '\r'
  | 'e' => some '\x1b'
  | ' ' => some ' '
  | '"' => some '"'
  | '/' => some '/'
  | '\\' => some '\\'
  | 'N' => some '\u0085'
  | '_' => some '\u00a0'
  | 'L' => some '\u2028'
  | 'P' => some '\u2029'
  | _ => none

/-- How many digits an escape by code point has. -/
def escapedDigits? : Char → Option Nat
  | 'x' => some 2
  | 'u' => some 4
  | 'U' => some 8
  | _ => none

/-- The character with a code point. -/
def charOf? (n : Nat) : Option Char :=
  if n.isValidChar then some (.ofNat n) else none

/-- The scalar up to its closing double quote. -/
def doubleQuoted (text : List Char) (gap : Gap) :
    Escape → List Char → Place → Option ScalarEnd
  | _, [], _ => none
  | .digits left value, c :: rest, p =>
    match Text.hexValue? c with
    | none => none
    | some d =>
      let value := value * 16 + d
      if left ≤ 1 then
        match charOf? value with
        | some c' => doubleQuoted (c' :: text) .none .none rest (p.after c)
        | none => none
      else doubleQuoted text .none (.digits (left - 1) value) rest (p.after c)
  | .begun, c :: rest, p =>
    if isBreak c then doubleQuoted text .escapedBreak .none rest (p.after c)
    else match escapedDigits? c, escapedChar? c with
      | some n, _ => doubleQuoted text .none (.digits n 0) rest (p.after c)
      | none, some c' => doubleQuoted (c' :: text) .none .none rest (p.after c)
      | none, none => none
  | .none, c :: rest, p =>
    if isSpace c then doubleQuoted text (gap.add c) .none rest (p.after c)
    else if p.column == 0 && atDocumentMark (c :: rest) then none
    else if c == '"' then some ⟨(gap.fold ++ text).reverse, false, rest, p.after c⟩
    else if c == '\\' then doubleQuoted (gap.fold ++ text) .none .begun rest (p.after c)
    else doubleQuoted (c :: gap.fold ++ text) .none .none rest (p.after c)

end HeadUnit.Yaml
