import HeadUnit.Proofs.Envelope.Bytes
import HeadUnit.Proofs.Message.RoundTrip
import HeadUnit.Proofs.WireType.Plain

/-!
# Messages through frames

A message with plain and steady parameters is the same at every version, and its frame is read as
its envelope. So the receiver finds the message, whatever the versions of the two ends are, and
types of another function or kind leave the envelope alone.

## Main definitions

* `Body.Portable` — parameters that are plain, steady and lawful.

## Main statements

* `MessageType.toEnvelope_eq` — a portable message is the same at every version.
* `MessageType.decodeBytes_encodeBytes_toEnvelope` — its envelope comes back from the frame.
* `MessageType.ofEnvelope?_toEnvelope` — its own type finds the message in the envelope.
* `MessageType.ofEnvelope?_toEnvelope_eq_none` — other types do not.
-/

namespace HeadUnit

/-- The parameters are plain, steady and lawful, and their frame is not nested too deeply. -/
structure Layout.Portable (l : Layout) : Prop where
  isPlain : l.isPlain = true
  isSteady : l.isSteady = true
  depth_le : l.depth ≤ 124
  lawful : ∀ v, l.LawfulAt v

/-- A body of fixed members that are portable. -/
def Body.Portable : Body → Prop
  | .fixed layout => layout.Portable
  | .registered _ => False

/-- No function was ever renamed. -/
theorem FunctionName.wireName_eq (f : FunctionName) (v w : Version) :
    f.wireName v = f.wireName w :=
  Vocabulary.wireName_eq_of_isEmpty rfl v w f

namespace MessageType

variable {m other : MessageType} (v : Version) (correlation : Option UInt32) (message : m.Message)

/-! ## Parameters -/

theorem toParams_eq (h : m.body.Portable) (w : Version) :
    m.toParams v message = m.toParams w message := by
  obtain ⟨name, function, kind, layout | registry⟩ := m
  · exact layout.write_eq_of_isSteady v w message .empty h.isSteady
  · exact h.elim

theorem ofParams_toParams (h : m.body.Portable) :
    m.ofParams v (m.toParams v message) = message := by
  obtain ⟨name, function, kind, layout | registry⟩ := m
  · have hfinite := layout.isFinite_of_isPlain message h.isPlain
    exact (layout.decode_write v message .empty (h.lawful v)).trans
      (layout.finitePart_eq_self message hfinite)
  · exact h.elim

theorem wellFormed_toParams (h : m.body.Portable) : (m.toParams v message).WellFormed := by
  obtain ⟨name, function, kind, layout | registry⟩ := m
  · exact layout.wellFormed_write v message Params.wellFormed_empty
  · exact h.elim

theorem isFinite_toParams (h : m.body.Portable) : (m.toParams v message).IsFinite := by
  obtain ⟨name, function, kind, layout | registry⟩ := m
  · exact layout.isFinite_write v message Params.isFinite_empty
  · exact h.elim

theorem legible_toParams (h : m.body.Portable) :
    (m.toParams v message).toJson.Legible 125 := by
  obtain ⟨name, function, kind, layout | registry⟩ := m
  · exact Value.legible_toJson_struct
      (layout.legible_write v message h.isPlain h.depth_le (List.forall_mem_nil _))
  · exact h.elim

/-! ## Envelopes -/

/-- A portable message is the same at every version. -/
theorem toEnvelope_eq (h : m.body.Portable) (w : Version) :
    m.toEnvelope v correlation message = m.toEnvelope w correlation message := by
  rw [toEnvelope, toEnvelope, m.function.wireName_eq v w, toParams_eq v message h w]

/-- The frame of a portable message is read as its envelope. -/
theorem decodeBytes_encodeBytes_toEnvelope (h : m.body.Portable) :
    Envelope.decodeBytes (m.toEnvelope v correlation message).encodeBytes =
      .ok (m.toEnvelope v correlation message) := by
  have hnormal : (m.toEnvelope v correlation message).normalForm =
      m.toEnvelope v correlation message := by
    refine (Envelope.normalForm_eq_self_iff _).2 ⟨fun hkind => ?_, isFinite_toParams v message h⟩
    change m.kind = .notification at hkind
    simp [toEnvelope, Envelope.make, hkind, MessageKind.isCorrelated]
  rw [Envelope.decodeBytes_encodeBytes_of_legible (wellFormed_toParams v message h)
    (legible_toParams v message h), hnormal]

theorem accepts_toEnvelope : other.accepts v (m.toEnvelope v correlation message) =
    (m.kind == other.kind && m.function == other.function) :=
  accepts_eq rfl rfl

/-- The type of a portable message finds the message in its envelope. -/
theorem ofEnvelope?_toEnvelope (h : m.body.Portable) :
    m.ofEnvelope? v (m.toEnvelope v correlation message) = some message := by
  rw [ofEnvelope?, accepts_toEnvelope, if_pos (by simp)]
  exact congrArg some (ofParams_toParams v message h)

/-- A type of another kind or function finds nothing. -/
theorem ofEnvelope?_toEnvelope_eq_none (h : m.kind ≠ other.kind ∨ m.function ≠ other.function) :
    other.ofEnvelope? v (m.toEnvelope v correlation message) = none := by
  rw [ofEnvelope?, accepts_toEnvelope, if_neg]
  rcases h with h | h <;> simp [h]

end MessageType

end HeadUnit
