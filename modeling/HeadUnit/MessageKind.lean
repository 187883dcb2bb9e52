/-!
# Message kinds

A message is a request, a response or a notification. Its kind is the tag of the envelope around
it; only requests and responses carry a correlation identifier.
-/

namespace HeadUnit

inductive MessageKind where
  | request
  | response
  | notification
deriving DecidableEq, Repr

namespace MessageKind

def all : List MessageKind :=
  [.request, .response, .notification]

/-- The key of the envelope's only tagged member. -/
def tag : MessageKind → String
  | .request => "request"
  | .response => "response"
  | .notification => "notification"

def ofTag? (s : String) : Option MessageKind :=
  all.find? (·.tag == s)

/-- Whether messages of this kind carry a correlation identifier. -/
def isCorrelated : MessageKind → Bool
  | .notification => false
  | _ => true

@[simp] theorem mem_all (k : MessageKind) : k ∈ all := by
  cases k <;> decide

@[simp] theorem ofTag?_tag (k : MessageKind) : ofTag? k.tag = some k := by
  cases k <;> decide

theorem ofTag?_eq_some_iff {s : String} {k : MessageKind} : ofTag? s = some k ↔ s = k.tag := by
  refine ⟨fun h => ?_, fun h => h ▸ ofTag?_tag k⟩
  have hfound := List.find?_some h
  exact (beq_iff_eq.1 hfound).symm

theorem tag_inj {k other : MessageKind} : k.tag = other.tag ↔ k = other := by
  cases k <;> cases other <;> decide

end MessageKind

end HeadUnit
