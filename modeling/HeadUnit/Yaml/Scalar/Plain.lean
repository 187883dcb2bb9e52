import HeadUnit.Yaml.Scalar.Gap

/-!
# Plain scalars

A plain scalar has no quotes. It ends before a colon or a comment that a space sets off, before a
line that is not indented enough, and in flow collections before their brackets and commas.
-/

namespace HeadUnit.Yaml

def isFlowMark (c : Char) : Bool :=
  c == ',' || c == '[' || c == ']' || c == '\x7b' || c == '\x7d'

/-- What may not follow a colon inside a plain scalar of a flow collection. -/
def clashesWithColon : List Char → Bool
  | [] => false
  | c :: _ => c == '?' || isFlowMark c

/-- The scalar at the front of a text, after the characters `text` and the gap behind them; both
are held last first. Content of the collection around it starts at the column `margin`. -/
def plain (inFlow : Bool) (margin : Nat) (text : List Char) (gap : Gap) :
    List Char → Place → Option ScalarEnd
  | [], p => some ⟨text.reverse, gap.broken, [], p⟩
  | c :: rest, p =>
    if isSpace c then
      if gap.broken && c == '\t' && p.column < margin then none
      else plain inFlow margin text (gap.add c) rest (p.after c)
    else if !gap.isNone && ((!inFlow && p.column < margin) || c == '#' ||
        (p.column == 0 && atDocumentMark (c :: rest))) then
      some ⟨text.reverse, gap.broken, c :: rest, p⟩
    else if inFlow && c == ':' && clashesWithColon rest then none
    else if (c == ':' && atWordEnd rest) || (inFlow && isFlowMark c) then
      some ⟨text.reverse, gap.broken, c :: rest, p⟩
    else plain inFlow margin (c :: gap.fold ++ text) .none rest (p.after c)

end HeadUnit.Yaml
