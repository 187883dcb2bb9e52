import HeadUnit.Error

/-!
# Allowlists

A rule `kind:function` lets messages of a kind call a function; either side may be `*`. The text
is split at its first colon, so a function may contain further ones.

## Main definitions

* `Rule`, `Rule.ofText` — a rule and its reading.
* `Allowlist.ofTexts`, `Allowlist.allows` — a list of rules and what it lets pass.
-/

namespace HeadUnit

/-- What a message has to be; a missing part admits everything. -/
structure Rule where
  kind : Option MessageKind
  function : Option String
deriving DecidableEq, Repr

namespace Rule

/-- The parts of a text before and after its first colon. -/
def split? (text : String) : Option (String × String) :=
  match text.toList.dropWhile (· != ':') with
  | [] => none
  | _ :: after => some (String.ofList (text.toList.takeWhile (· != ':')), String.ofList after)

/-- The kind that a rule names, none standing for all. -/
def readKind (s : String) : Except Error (Option MessageKind) :=
  if s = "*" then .ok none
  else match MessageKind.ofTag? s with
    | some kind => .ok (some kind)
    | none => .error (.badRequest (.ruleKind s))

/-- The rule of a text. -/
def ofText (text : String) : Except Error Rule :=
  match split? text with
  | none => .error (.badRequest (.ruleWithoutColon text))
  | some (kind, function) => do
    let kind ← readKind kind
    if function = "" then .error (.badRequest (.ruleWithoutFunction text))
    else .ok ⟨kind, if function = "*" then none else some function⟩

/-- Whether a message of this kind may call this function. -/
def allows (r : Rule) (kind : MessageKind) (function : String) : Bool :=
  r.kind.all (· == kind) && r.function.all (· == function)

end Rule

/-- Rules of which one has to match. -/
abbrev Allowlist := List Rule

namespace Allowlist

def ofTexts (texts : List String) : Except Error Allowlist :=
  texts.mapM Rule.ofText

def allows (rules : Allowlist) (kind : MessageKind) (function : String) : Bool :=
  rules.any (·.allows kind function)

end Allowlist

end HeadUnit
