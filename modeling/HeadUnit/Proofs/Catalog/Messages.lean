import HeadUnit.Catalog.VehicleData
import HeadUnit.Proofs.Message.Bytes
import Mathlib.Data.List.Pairwise

/-!
# Messages with fixed parameters

The parameters of these messages never changed their names and keys, so the messages pass between
any two versions, and no two message types have both function and kind in common.

## Main statements

* `portable_fixedMessages` — every message with fixed parameters is portable.
* `ofEnvelope?_decodeBytes_encodeBytes` — a message from its sender to its receiver.
-/

namespace HeadUnit.Catalog

theorem portable_fixedMessages : ∀ m ∈ fixedMessages, m.body.Portable := by
  simp only [fixedMessages, List.forall_mem_cons]
  refine ⟨?_, ?_, ?_, ?_, List.forall_mem_nil _⟩
  all_goals exact ⟨by decide, by decide, by decide, by decide +kernel⟩

/-- No two message types have both function and kind in common. -/
theorem pairwise_messages : (onVehicleData :: fixedMessages).Pairwise
    fun m other => m.kind ≠ other.kind ∨ m.function ≠ other.function := by
  decide

theorem kind_or_function_ne {m other : MessageType} (hm : m ∈ onVehicleData :: fixedMessages)
    (hother : other ∈ onVehicleData :: fixedMessages) (hne : m ≠ other) :
    m.kind ≠ other.kind ∨ m.function ≠ other.function := by
  have hsymm : Std.Symm fun m other : MessageType =>
      m.kind ≠ other.kind ∨ m.function ≠ other.function :=
    ⟨fun _ _ h => h.imp Ne.symm Ne.symm⟩
  exact pairwise_messages.forall hm hother hne

/-- A message is sent at `v` and received at `w` as a frame. The frame is read, kind and function
are the message's, a request or response keeps its correlation identifier, and of all message types
only its own finds a message in it: the one that was sent. -/
theorem ofEnvelope?_decodeBytes_encodeBytes {m : MessageType} (hm : m ∈ fixedMessages)
    (message : m.Message) (v w : Version) (correlation : Option UInt32) :
    ∃ e, Envelope.decodeBytes (m.toEnvelope v correlation message).encodeBytes = .ok e ∧
      e.kind = m.kind ∧
      FunctionName.ofWireName? w e.name = some m.function ∧
      e.correlation = (if m.kind = .notification then none else correlation) ∧
      m.ofEnvelope? w e = some message ∧
      ∀ other ∈ onVehicleData :: fixedMessages, other ≠ m → other.ofEnvelope? w e = none := by
  have hportable := portable_fixedMessages m hm
  refine ⟨m.toEnvelope w correlation message, ?_, rfl, ?_, ?_, ?_, ?_⟩
  · rw [m.toEnvelope_eq v correlation message hportable w]
    exact m.decodeBytes_encodeBytes_toEnvelope w correlation message hportable
  · exact FunctionName.ofWireName?_wireName m.function w
  · change (if m.kind.isCorrelated then correlation else none) = _
    cases m.kind <;> rfl
  · exact m.ofEnvelope?_toEnvelope w correlation message hportable
  · intro other hother hne
    have hapart := kind_or_function_ne (List.mem_cons_of_mem _ hm) hother hne.symm
    exact MessageType.ofEnvelope?_toEnvelope_eq_none w correlation message hapart

/-- A system request with control characters and an empty text, between distant versions. -/
theorem ofEnvelope?_decodeBytes_encodeBytes_systemRequest :
    let message : systemRequest.Message :=
      (some "\x01\"\\", some ⟨2, by decide⟩, some ["", "\n\x1f"], ())
    systemRequest ∈ fixedMessages ∧
      ∃ e,
        Envelope.decodeBytes (systemRequest.toEnvelope .v1 (some 7) message).encodeBytes = .ok e ∧
        e.correlation = some 7 ∧ systemRequest.ofEnvelope? .v5 e = some message ∧
        deleteCommand.ofEnvelope? .v5 e = none := by
  intro message
  have hmem : systemRequest ∈ fixedMessages := by simp [fixedMessages]
  obtain ⟨e, hdecode, -, -, hcorrelation, hreceived, hothers⟩ :=
    ofEnvelope?_decodeBytes_encodeBytes hmem message .v1 .v5 (some 7)
  have hne : deleteCommand ≠ systemRequest := fun h =>
    absurd (congrArg MessageType.name h) (by decide)
  exact ⟨hmem, e, hdecode, hcorrelation, hreceived,
    hothers deleteCommand (by simp [fixedMessages]) hne⟩

end HeadUnit.Catalog
