import HeadUnit.Yaml.Token

/-!
# YAML directives

A directive stands on a line of its own in front of a document. It gives the version of YAML, or
lets a handle stand for the beginning of tags. Only versions 1.1 and 1.2 are known.

## Main definitions

* `Yaml.directive?` — the directive at the front of a text.
-/

namespace HeadUnit.Yaml

/-- A number of one to nine digits, and what follows it. -/
def versionNumber? (s : List Char) : Option (Nat × List Char) :=
  let digits := s.takeWhile Char.isDigit
  if digits.isEmpty || 9 < digits.length then none
  else some (Nat.ofDigitChars 10 digits 0, s.drop digits.length)

/-- The two numbers of a version with a point between them. -/
def versionDirective? (s : List Char) : Option (Token × List Char) := do
  let (major, s) ← versionNumber? s
  match s with
  | '.' :: s =>
    let (minor, s) ← versionNumber? s
    if major = 1 && (minor = 1 || minor = 2) then some (.versionDirective, s) else none
  | _ => none

/-- A handle and the beginning of tags, set off by blanks. -/
def tagDirective? (s : List Char) : Option (Token × List Char) := do
  let (handle, s) ← handle? s
  if !s.head?.any isBlank then none
  let (address, s) ← uri? true (s.dropWhile isBlank)
  if atWordEnd s then some (.tagDirective handle address, s) else none

/-- The directive at the front of a text, and what follows it. -/
def directive? : List Char → Option (Token × List Char)
  | '%' :: s =>
    let name := s.takeWhile isNameChar
    let s := s.drop name.length
    if !atWordEnd s then none
    else if name = "YAML".toList then versionDirective? (s.dropWhile isBlank)
    else if name = "TAG".toList then tagDirective? (s.dropWhile isBlank)
    else none
  | _ => none

end HeadUnit.Yaml
