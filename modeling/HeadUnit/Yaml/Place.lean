/-!
# Characters and places of a YAML text

A YAML text may hold printable characters, tabulators and line ends. All line ends but the two
separators of Unicode are read as `\n`. A place is known by its line and its column, since
indentation carries meaning.

## Main definitions

* `Yaml.normalize?` — a text with uniform line ends, if all of its characters are admitted.
* `Yaml.Place` — where a character stands.
-/

namespace HeadUnit.Yaml

def isAdmitted (c : Char) : Bool :=
  c == '\t' || c == '\n' || c == '\r' || c == '\u0085' ||
    (decide (' ' ≤ c ∧ c ≤ '~')) || decide ('\u00a0' ≤ c ∧ c ≤ '\ufffd') ||
    decide ('\ufffd' < c ∧ 0x10000 ≤ c.toNat)

/-- Read the line ends of all systems as `\n`. -/
def uniformLineEnds : List Char → List Char
  | [] => []
  | '\r' :: '\n' :: rest => '\n' :: uniformLineEnds rest
  | c :: rest =>
    (if c == '\r' || c == '\u0085' then '\n' else c) :: uniformLineEnds rest

/-- A text with uniform line ends, if it holds only characters that are admitted. -/
def normalize? (s : String) : Option (List Char) :=
  if s.toList.all isAdmitted then some (uniformLineEnds s.toList) else none

def isBlank (c : Char) : Bool :=
  c == ' ' || c == '\t'

def isBreak (c : Char) : Bool :=
  c == '\n' || c == '\u2028' || c == '\u2029'

def isSpace (c : Char) : Bool :=
  isBlank c || isBreak c

/-- Whether a space, a line end or nothing comes next. -/
def atWordEnd : List Char → Bool
  | [] => true
  | c :: _ => isSpace c

/-- Whether a mark of the beginning or the end of a document comes next. -/
def atDocumentMark : List Char → Bool
  | '-' :: '-' :: '-' :: rest => atWordEnd rest
  | '.' :: '.' :: '.' :: rest => atWordEnd rest
  | _ => false

/-- Where a character stands: how many come before it, and its line and column. -/
structure Place where
  index : Nat
  line : Nat
  column : Nat
deriving DecidableEq, Repr

namespace Place

def start : Place := ⟨0, 0, 0⟩

/-- The place behind the character `c`. -/
def after (p : Place) (c : Char) : Place :=
  if isBreak c then ⟨p.index + 1, p.line + 1, 0⟩ else ⟨p.index + 1, p.line, p.column + 1⟩

/-- The place behind characters that end no line. -/
def plus (p : Place) (n : Nat) : Place :=
  ⟨p.index + n, p.line, p.column + n⟩

end Place

/-- What is left of a text, and where. -/
structure Rest where
  chars : List Char
  place : Place

namespace Rest

/-- Leave out the characters at the front that satisfy `f`. -/
def dropWhile (f : Char → Bool) : List Char → Place → Rest
  | [], p => ⟨[], p⟩
  | c :: rest, p => if f c then dropWhile f rest (p.after c) else ⟨c :: rest, p⟩

/-- Leave out the mark of the byte order at the beginning of a line. It takes a column. -/
def dropOrderMark (r : Rest) : Rest :=
  match r.chars with
  | '\ufeff' :: rest => if r.place.column = 0 then ⟨rest, r.place.plus 1⟩ else r
  | _ => r

/-- Leave out blanks and a comment behind them, up to the end of the line. -/
def dropComment (r : Rest) : Rest :=
  let r := dropWhile isBlank r.chars r.place
  match r.chars with
  | '#' :: _ => dropWhile (fun c => !isBreak c) r.chars r.place
  | _ => r

end Rest

end HeadUnit.Yaml
