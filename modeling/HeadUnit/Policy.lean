import HeadUnit.Config

/-!
# Policy

Which frames and messages are let in: a frame by its length before it is read, a message by its
kind and function. An empty allowlist lets nothing in.

## Main definitions

* `Policy`, `Policy.ofConfig` — a policy and the one that a configuration asks for.
* `Policy.checkLength`, `Policy.checkMessage` — the verdicts.
-/

namespace HeadUnit

/-- Why something is kept out. -/
inductive Rejection where
  | frameTooLarge
  | nothingAllowed
  | notAllowed
deriving DecidableEq, Repr

namespace Rejection

def code : Rejection → ErrorCode
  | .frameTooLarge => .payloadTooLarge
  | .nothingAllowed => .notAllowed
  | .notAllowed => .notAllowed

def message : Rejection → String
  | .frameTooLarge => "frame too large"
  | .nothingAllowed => "policy.allow empty (strict deny)"
  | .notAllowed => "kind/function not allowed"

end Rejection

structure Policy where
  frameLimit : Nat
  rules : Allowlist
deriving DecidableEq, Repr

namespace Policy

def ofConfig (c : Config) : Except Error Policy := do
  let rules ← c.rules
  .ok ⟨c.frameLimit, rules⟩

/-- Why a frame of this length is kept out, if it is. -/
def checkLength (p : Policy) (length : Nat) : Option Rejection :=
  if p.frameLimit < length then some .frameTooLarge else none

/-- Why a message is kept out, if it is. -/
def checkMessage (p : Policy) (kind : MessageKind) (function : String) : Option Rejection :=
  if p.rules.isEmpty then some .nothingAllowed
  else if p.rules.allows kind function then none
  else some .notAllowed

end Policy

end HeadUnit
