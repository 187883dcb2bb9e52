import HeadUnit.Container
import HeadUnit.Envelope
import HeadUnit.FunctionName

/-!
# Typed messages

A message type says which function and kind its messages have, and how their parameters are read:
as the members of a layout, or as a container over a registry.

## Main definitions

* `MessageType`, `MessageType.Message` — descriptions of messages and the messages themselves.
* `MessageType.ofParams`, `MessageType.toParams` — between messages and parameters.
* `MessageType.toEnvelope`, `MessageType.ofEnvelope?` — between messages and envelopes.
-/

namespace HeadUnit

/-- How the parameters of a message are read. -/
inductive Body where
  | fixed (layout : Layout)
  | registered (registry : Registry)

@[reducible] def Body.Carrier : Body → Type
  | .fixed layout => layout.Carrier
  | .registered registry => Container registry

/-- Messages of one function and kind. -/
structure MessageType where
  name : String
  function : FunctionName
  kind : MessageKind
  body : Body

namespace MessageType

/-- The messages of a type. -/
abbrev Message (m : MessageType) := m.body.Carrier

def ofBody (v : Version) (p : Params) : (b : Body) → b.Carrier
  | .fixed layout => layout.decode v p
  | .registered _ => ⟨v, p⟩

def bodyParams (v : Version) : (b : Body) → b.Carrier → Params
  | .fixed layout, members => layout.encode v members
  | .registered _, container => (container.toVersion v).params

/-- The message that the parameters hold at `v`. -/
def ofParams (m : MessageType) (v : Version) (p : Params) : m.Message :=
  ofBody v p m.body

/-- The parameters of a message at `v`. -/
def toParams (m : MessageType) (v : Version) (message : m.Message) : Params :=
  bodyParams v m.body message

/-- A message ready to send; a notification leaves the correlation identifier out. -/
def toEnvelope (m : MessageType) (v : Version) (correlation : Option UInt32)
    (message : m.Message) : Envelope :=
  .make m.kind (m.function.wireName v) correlation (m.toParams v message)

/-- Whether an envelope is for this function and kind. -/
def accepts (m : MessageType) (v : Version) (e : Envelope) : Bool :=
  e.kind == m.kind && FunctionName.ofWireName? v e.name == some m.function

/-- The message in an envelope, if the envelope is for this function and kind. -/
def ofEnvelope? (m : MessageType) (v : Version) (e : Envelope) : Option m.Message :=
  if m.accepts v e then some (m.ofParams v e.params) else none

end MessageType

end HeadUnit
