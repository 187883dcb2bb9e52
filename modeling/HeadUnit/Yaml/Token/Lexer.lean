import HeadUnit.Yaml.Scalar.Block
import HeadUnit.Yaml.Scalar.Plain
import HeadUnit.Yaml.Scalar.Quoted
import HeadUnit.Yaml.Token.Directive

/-!
# Tokens of a YAML text

The indentation of a line opens and closes block collections. A key may stand without a mark;
only the colon behind it tells that it was one, and its key token is put in front of it then.
Such a key has to end on its line, within 1024 characters.

## Main definitions

* `Yaml.Lexer` — the tokens read so far with what indentation and possible keys are open.
* `Yaml.Lexer.step` — the next token.
* `Yaml.tokens?` — the tokens of a text.
-/

namespace HeadUnit.Yaml

/-- What may turn out to be a key: the number of its first token and its place. A key that the
indentation asks for has to turn out to be one. -/
structure PossibleKey where
  number : Nat
  place : Place
  required : Bool

/-- The tokens read so far, last first. `margins` are the columns behind the starts of the open
block collections, innermost first, and `keys` the possible keys of the open flow collections,
innermost first, and of the block around them. -/
structure Lexer where
  rest : Rest
  tokens : List Token
  count : Nat
  margins : List Nat
  keys : List (Option PossibleKey)
  keyAllowed : Bool
  finished : Bool

namespace Lexer

def start (s : List Char) : Lexer where
  rest := ⟨s, .start⟩
  tokens := []
  count := 0
  margins := []
  keys := [none]
  keyAllowed := true
  finished := false

def inFlow (l : Lexer) : Bool :=
  decide (1 < l.keys.length)

/-- The column where content of the innermost block collection has to start. -/
def margin (l : Lexer) : Nat :=
  l.margins.head?.getD 0

def column (l : Lexer) : Nat :=
  l.rest.place.column

def push (l : Lexer) (t : Token) : Lexer :=
  { l with tokens := t :: l.tokens, count := l.count + 1 }

/-- Put a token in front of the one with this number. -/
def pushAt (l : Lexer) (number : Nat) (t : Token) : Lexer :=
  let behind := l.count - number
  { l with
    tokens := l.tokens.take behind ++ t :: l.tokens.drop behind
    count := l.count + 1 }

/-- Go on behind the next `n` characters, none of which ends a line. -/
def skip (l : Lexer) (n : Nat) : Lexer :=
  { l with rest := ⟨l.rest.chars.drop n, l.rest.place.plus n⟩ }

/-- Go on at `rest`, which is behind the same line's characters. -/
def skipTo (l : Lexer) (rest : List Char) : Lexer :=
  l.skip (l.rest.chars.length - rest.length)

def goTo (l : Lexer) (r : Rest) : Lexer :=
  { l with rest := r }

def allowKey (l : Lexer) (allowed : Bool) : Lexer :=
  { l with keyAllowed := allowed }

/-! ## Indentation -/

/-- Open a block collection that starts at `column`, unless one does. -/
def openBlock (l : Lexer) (column number : Nat) (t : Token) : Lexer :=
  if !l.inFlow && l.margin < column + 1 then
    { l.pushAt number t with margins := (column + 1) :: l.margins }
  else l

/-- Close the block collections whose margin is greater than `limit`. -/
def closeBlocks (l : Lexer) (limit : Nat) : Lexer :=
  if l.inFlow then l
  else
    let closed := l.margins.takeWhile (limit < ·)
    { closed.foldl (fun l _ => l.push .endBlock) l with
      margins := l.margins.dropWhile (limit < ·) }

/-! ## Possible keys -/

/-- Give up the innermost possible key. -/
def dropKey? (l : Lexer) : Option Lexer :=
  match l.keys with
  | some key :: outer => if key.required then none else some { l with keys := none :: outer }
  | _ => some l

/-- What comes next may be a key, if one is allowed here. -/
def saveKey? (l : Lexer) : Option Lexer :=
  if l.keyAllowed then do
    let l ← l.dropKey?
    let required := !l.inFlow && l.margin == l.column + 1
    some { l with keys := some ⟨l.count, l.rest.place, required⟩ :: l.keys.tail }
  else some l

/-- Give up the possible keys that are too far back. -/
def dropStaleKeys? (l : Lexer) : Option Lexer :=
  let here := l.rest.place
  let isStale (key : PossibleKey) : Bool :=
    key.place.line < here.line || key.place.index + 1024 < here.index
  if l.keys.any (·.any fun key => isStale key && key.required) then none
  else some { l with keys := l.keys.map (·.filter fun key => !isStale key) }

/-! ## Spaces -/

/-- Leave out spaces, comments and line ends. A line end outside flow collections allows a key;
where a key is allowed a tabulator is no space. -/
def skipSpaces (fuel : Nat) (l : Lexer) : Lexer :=
  match fuel with
  | 0 => l
  | fuel + 1 =>
    let tabs := l.inFlow || !l.keyAllowed
    let r := l.rest.dropOrderMark
    let r := Rest.dropWhile (fun c => c == ' ' || (tabs && c == '\t')) r.chars r.place
    let r := match r.chars with
      | '#' :: _ => Rest.dropWhile (fun c => !isBreak c) r.chars r.place
      | _ => r
    match r.chars with
    | c :: rest =>
      if isBreak c then
        skipSpaces fuel
          { l with rest := ⟨rest, r.place.after c⟩, keyAllowed := !l.inFlow || l.keyAllowed }
      else l.goTo r
    | [] => l.goTo r

/-! ## Single tokens -/

def documentMark? (l : Lexer) (t : Token) : Option Lexer := do
  let l ← (l.closeBlocks 0).dropKey?
  some (((l.allowKey false).skip 3).push t)

def beginFlow? (l : Lexer) (t : Token) : Option Lexer := do
  let l ← l.saveKey?
  some ((({ l with keys := none :: l.keys }.allowKey true).skip 1).push t)

def endFlow? (l : Lexer) (t : Token) : Option Lexer := do
  let l ← l.dropKey?
  let keys := if l.inFlow then l.keys.tail else l.keys
  some ((({ l with keys := keys }.allowKey false).skip 1).push t)

def comma? (l : Lexer) : Option Lexer := do
  let l ← l.dropKey?
  some (((l.allowKey true).skip 1).push .comma)

def entry? (l : Lexer) : Option Lexer := do
  if !l.inFlow && !l.keyAllowed then none
  let l ← (l.openBlock l.column l.count .beginBlockSequence).dropKey?
  some (((l.allowKey true).skip 1).push .entry)

def key? (l : Lexer) : Option Lexer := do
  if !l.inFlow && !l.keyAllowed then none
  let l ← (l.openBlock l.column l.count .beginBlockMapping).dropKey?
  some (((l.allowKey !l.inFlow).skip 1).push .key)

/-- A colon: what may have been a key was one, or else the key is missing. -/
def value? (l : Lexer) : Option Lexer :=
  match l.keys with
  | some key :: outer =>
    let l := (l.pushAt key.number .key).openBlock key.place.column key.number .beginBlockMapping
    some (((({ l with keys := none :: outer }).allowKey false).skip 1).push .value)
  | _ => do
    if !l.inFlow && !l.keyAllowed then none
    let l := l.openBlock l.column l.count .beginBlockMapping
    some (((l.allowKey !l.inFlow).skip 1).push .value)

/-- Whether a name may end before these characters. -/
def endsName (s : List Char) : Bool :=
  atWordEnd s || s.head?.any fun c =>
    c == '?' || c == ':' || c == ',' || c == ']' || c == '\x7d' || c == '%' || c == '@' ||
      c == '\x60'

/-- The name of an anchor or an alias behind its mark. -/
def name? (l : Lexer) (t : String → Token) : Option Lexer := do
  let l ← l.saveKey?
  let l := (l.allowKey false).skip 1
  let name := l.rest.chars.takeWhile isNameChar
  let l := l.skip name.length
  if name.isEmpty || !endsName l.rest.chars then none
  else some (l.push (t (String.ofList name)))

def tag? (l : Lexer) : Option Lexer := do
  let l ← l.saveKey?
  let (handle, suffix, rest) ← tagParts? l.rest.chars
  if atWordEnd rest || (l.inFlow && rest.head? == some ',') then
    some (((l.allowKey false).skipTo rest).push (.tag handle suffix))
  else none

def blockScalar? (l : Lexer) (style : Style) : Option Lexer := do
  let l ← l.dropKey?
  let l := l.skip 1
  let scalar ← Yaml.blockScalar? style l.margin l.rest.chars l.rest.place
  some (((l.allowKey true).goTo scalar.rest).push (.scalar style (String.ofList scalar.text)))

/-- A scalar that may be a key. -/
def inlineScalar? (l : Lexer) (style : Style) (read : Lexer → Option ScalarEnd) :
    Option Lexer := do
  let l ← l.saveKey?
  let scalar ← read l
  some (((l.allowKey scalar.broken).goTo scalar.rest).push
    (.scalar style (String.ofList scalar.text)))

def readPlain (l : Lexer) : Option ScalarEnd :=
  plain l.inFlow l.margin [] .none l.rest.chars l.rest.place

def readSingle (l : Lexer) : Option ScalarEnd :=
  singleQuoted [] .none l.rest.chars.tail (l.rest.place.plus 1)

def readDouble (l : Lexer) : Option ScalarEnd :=
  doubleQuoted [] .none .none l.rest.chars.tail (l.rest.place.plus 1)

/-- A directive takes its line with the end of it. -/
def directive? (l : Lexer) : Option Lexer := do
  let l ← (l.closeBlocks 0).dropKey?
  let (t, rest) ← Yaml.directive? l.rest.chars
  let l := (l.allowKey false).skipTo rest
  let r := l.rest.dropComment
  match r.chars with
  | [] => some ((l.goTo r).push t)
  | c :: rest =>
    if isBreak c then some ((l.goTo ⟨rest, r.place.after c⟩).push t) else none

/-! ## Steps -/

/-- Whether a plain scalar may start here. -/
def startsPlain (inFlow : Bool) (c : Char) (rest : List Char) : Bool :=
  if c == '-' then !rest.head?.any isBlank
  else if c == '?' || c == ':' then !inFlow && !atWordEnd rest
  else !isBlank c && !(",[]\x7b\x7d#&*!|>'\"%@\x60".toList.contains c)

def finish? (l : Lexer) : Option Lexer := do
  let l ← (l.closeBlocks 0).dropKey?
  some { l with finished := true }

/-- The next token, or the end. -/
def step (l : Lexer) : Option Lexer := do
  let l := l.skipSpaces (l.rest.chars.length + 1)
  let l ← l.dropStaleKeys?
  let l := l.closeBlocks (l.column + 1)
  match l.rest.chars with
  | [] => l.finish?
  | c :: rest =>
    let ahead := atWordEnd rest
    if l.column == 0 && c == '%' then l.directive?
    else if l.column == 0 && atDocumentMark (c :: rest) then
      l.documentMark? (if c == '-' then .documentStart else .documentEnd)
    else if c == '[' then l.beginFlow? .beginFlowSequence
    else if c == '\x7b' then l.beginFlow? .beginFlowMapping
    else if c == ']' then l.endFlow? .endFlowSequence
    else if c == '\x7d' then l.endFlow? .endFlowMapping
    else if c == ',' then l.comma?
    else if c == '-' && ahead then l.entry?
    else if c == '?' && (l.inFlow || ahead) then l.key?
    else if c == ':' && (l.inFlow || ahead) then l.value?
    else if c == '*' then l.name? .alias
    else if c == '&' then l.name? .anchor
    else if c == '!' then l.tag?
    else if c == '|' && !l.inFlow then l.blockScalar? .literal
    else if c == '>' && !l.inFlow then l.blockScalar? .folded
    else if c == '\'' then l.inlineScalar? .quoted readSingle
    else if c == '"' then l.inlineScalar? .quoted readDouble
    else if startsPlain l.inFlow c rest then l.inlineScalar? .plain readPlain
    else none

/-- Read on to the end; every step but the last takes a character. -/
def run : (fuel : Nat) → Lexer → Option Lexer
  | 0, l => some l
  | fuel + 1, l => if l.finished then some l else l.step.bind (run fuel)

end Lexer

/-- The tokens of a text in order. -/
def tokens? (s : String) : Option (List Token) := do
  let cs ← normalize? s
  let l ← Lexer.run (cs.length + 2) (.start cs)
  if l.finished then some l.tokens.reverse else none

end HeadUnit.Yaml
