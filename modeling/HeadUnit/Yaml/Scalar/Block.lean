import HeadUnit.Yaml.Scalar.Gap
import HeadUnit.Yaml.Token

/-!
# Block scalars

A block scalar is a run of lines that are indented alike. In literal style line ends are kept; in
folded style a single line end between two lines of text is read as a space. What is done with
the line ends at its end is up to the header.
-/

namespace HeadUnit.Yaml

/-- What is done with the line ends at the end: the last is kept, none is, or all are. -/
inductive Chomping where
  | clip
  | strip
  | keep
deriving DecidableEq

structure BlockHeader where
  chomping : Chomping
  indentation : Option Nat
  rest : Rest

def chompingOf? : Char → Option Chomping
  | '+' => some .keep
  | '-' => some .strip
  | _ => none

def indentationOf? (c : Char) : Option Nat :=
  if c.isDigit && c != '0' then some (c.toNat - '0'.toNat) else none

/-- The indicators behind the mark of a block scalar, in either order, up to the end of the
line. -/
def blockHeader? (s : List Char) (p : Place) : Option BlockHeader :=
  let (chomping, indentation, n) : Chomping × Option Nat × Nat :=
    match s with
    | [] => (.clip, none, 0)
    | c :: rest =>
      match chompingOf? c, indentationOf? c with
      | some chomping, _ =>
        match rest.head?.bind indentationOf? with
        | some n => (chomping, some n, 2)
        | none => (chomping, none, 1)
      | none, some n =>
        match rest.head?.bind chompingOf? with
        | some chomping => (chomping, some n, 2)
        | none => (.clip, some n, 1)
      | none, none => (.clip, none, 0)
  let rest := Rest.dropComment ⟨s.drop n, p.plus n⟩
  match rest.chars with
  | [] => some ⟨chomping, indentation, rest⟩
  | c :: chars =>
    if isBreak c then some ⟨chomping, indentation, chars, rest.place.after c⟩ else none

/-- Line ends read between lines of text, last first, and how far the widest of the blank lines
was indented. -/
structure BlankLines where
  breaks : List Char
  widest : Nat
  rest : Rest

/-- Leave out indentation and blank lines. A tabulator is no indentation. -/
def blankLines? (indentation : Option Nat) (breaks : List Char) (widest : Nat) :
    List Char → Place → Option BlankLines
  | [], p => some ⟨breaks, max widest p.column, [], p⟩
  | c :: rest, p =>
    let widest := max widest p.column
    let inside := indentation.all (p.column < ·)
    if inside && c == ' ' then blankLines? indentation breaks widest rest (p.after c)
    else if inside && c == '\t' then none
    else if isBreak c then blankLines? indentation (c :: breaks) widest rest (p.after c)
    else some ⟨breaks, widest, c :: rest, p⟩

/-- Text read so far with what is known about its end; characters are held last first. -/
structure BlockText where
  text : List Char
  lastBreak : Option Char
  breaks : List Char
  startedBlank : Bool

namespace BlockText

/-- The text with the line ends before a further line. -/
def joined (b : BlockText) (style : Style) (startsBlank : Bool) : List Char :=
  if style == .folded && b.lastBreak == some '\n' && !b.startedBlank && !startsBlank then
    (if b.breaks.isEmpty then [' '] else b.breaks) ++ b.text
  else b.breaks ++ b.lastBreak.toList ++ b.text

/-- The text with the line ends at its end. -/
def chomped (b : BlockText) : Chomping → List Char
  | .strip => b.text
  | .clip => b.lastBreak.toList ++ b.text
  | .keep => b.breaks ++ b.lastBreak.toList ++ b.text

end BlockText

/-- The lines that are indented by `indentation`; there are fewer than `fuel`. -/
def blockLines? (style : Style) (indentation : Nat) :
    (fuel : Nat) → BlockText → Rest → Option (BlockText × Rest)
  | 0, b, r => some (b, r)
  | fuel + 1, b, r =>
    match r.chars with
    | [] => some (b, r)
    | c :: _ =>
      if r.place.column = indentation then
        let startsBlank := isBlank c
        let line := r.chars.takeWhile fun c => !isBreak c
        let after := Rest.dropWhile (fun c => !isBreak c) r.chars r.place
        let (lastBreak, after) : Option Char × Rest :=
          match after.chars with
          | [] => (none, after)
          | c :: chars => (some c, ⟨chars, after.place.after c⟩)
        match blankLines? (some indentation) [] 0 after.chars after.place with
        | none => none
        | some blank =>
          let text := line.reverse ++ b.joined style startsBlank
          blockLines? style indentation fuel ⟨text, lastBreak, blank.breaks, startsBlank⟩
            blank.rest
      else some (b, r)

/-- The scalar behind its mark. Without an indicator the first line decides the indentation,
which is at least `margin` and at least one. -/
def blockScalar? (style : Style) (margin : Nat) (s : List Char) (p : Place) :
    Option ScalarEnd := do
  let header ← blockHeader? s p
  let given := header.indentation.map fun n => if margin = 0 then n else margin - 1 + n
  let blank ← blankLines? given [] 0 header.rest.chars header.rest.place
  let indentation := given.getD (max blank.widest (max margin 1))
  let (b, rest) ← blockLines? style indentation blank.rest.chars.length
    ⟨[], none, blank.breaks, false⟩ blank.rest
  some ⟨(b.chomped header.chomping).reverse, true, rest⟩

end HeadUnit.Yaml
