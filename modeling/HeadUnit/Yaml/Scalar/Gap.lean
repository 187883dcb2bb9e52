import HeadUnit.Yaml.Place

/-!
# Gaps inside scalars

Between two words of a scalar may stand blanks, or line ends with blanks around them. Blanks of
one line are kept. A single line end is read as a space; further ones are kept.
-/

namespace HeadUnit.Yaml

/-- Blanks and line ends read so far, last first. -/
structure Gap where
  blanks : List Char
  broken : Bool
  first : Option Char
  further : List Char

namespace Gap

def none : Gap := ⟨[], false, .none, []⟩

/-- A line end that stands for nothing. -/
def escapedBreak : Gap := ⟨[], true, .none, []⟩

def isNone (g : Gap) : Bool :=
  !g.broken && g.blanks.isEmpty

def add (g : Gap) (c : Char) : Gap :=
  if isBreak c then
    if g.broken then { g with further := c :: g.further } else ⟨[], true, some c, []⟩
  else if g.broken then g
  else { g with blanks := c :: g.blanks }

/-- What the gap stands for in the text, last first. -/
def fold (g : Gap) : List Char :=
  match g.broken, g.first with
  | false, _ => g.blanks
  | true, some '\n' => if g.further.isEmpty then [' '] else g.further
  | true, some c => g.further ++ [c]
  | true, .none => g.further

end Gap

/-- A scalar's characters, whether it ends behind a line end, and what follows. -/
structure ScalarEnd where
  text : List Char
  broken : Bool
  rest : Rest

end HeadUnit.Yaml
