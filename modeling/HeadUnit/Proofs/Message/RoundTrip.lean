import HeadUnit.Message
import HeadUnit.Proofs.Catalog.Tables
import HeadUnit.Proofs.Envelope.RoundTrip
import HeadUnit.Proofs.Value.RoundTrip

/-!
# Messages through envelopes

Functions have distinct names at every version, so a receiver at the sender's version finds the
sender's function, and reads from the parameters what the sender wrote into them.

## Main statements

* `FunctionName.ofWireName?_wireName` — a function by its name.
* `MessageType.accepts_eq` — which types accept the envelope of a message.
* `MessageType.ofEnvelope?_decode_encode` — a message through the tree of its envelope.
-/

namespace HeadUnit

namespace FunctionName

/-- A function's name names the function. -/
theorem ofWireName?_wireName (f : FunctionName) (v : Version) :
    ofWireName? v (f.wireName v) = some f :=
  Vocabulary.ofWireName?_wireName (Catalog.distinctAt_functions v) f

end FunctionName

namespace MessageType

/-- A type accepts the envelopes of messages of its kind and function, at the sender's version. -/
theorem accepts_eq {m other : MessageType} {v : Version} {e : Envelope} (hkind : e.kind = m.kind)
    (hname : e.name = m.function.wireName v) :
    other.accepts v e = (m.kind == other.kind && m.function == other.function) := by
  rw [accepts, hkind, hname, FunctionName.ofWireName?_wireName]
  rfl

/-- A message that is sent and viewed at one version holds what its parameters hold there. -/
theorem ofEnvelope?_decode_encode (m : MessageType) (v : Version) (correlation : Option UInt32)
    (message : m.Message) (hwell : (m.toParams v message).WellFormed)
    (hfinite : (m.toParams v message).IsFinite) :
    ∃ e, Envelope.decode (m.toEnvelope v correlation message).encode = .ok e ∧
      m.ofEnvelope? v e = some (m.ofParams v (m.toParams v message)) := by
  refine ⟨_, Envelope.decode_encode _, ?_⟩
  have hparams : Params.ofJson (m.toEnvelope v correlation message).params.toJson =
      m.toParams v message := Params.ofJson_toJson hwell hfinite
  rw [ofEnvelope?, if_pos (Eq.trans (accepts_eq rfl rfl) (by simp)), hparams]

end MessageType

end HeadUnit
