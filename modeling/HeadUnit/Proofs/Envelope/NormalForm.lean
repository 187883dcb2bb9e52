import HeadUnit.Proofs.Envelope.RoundTrip
import HeadUnit.Proofs.Params.Built
import HeadUnit.Proofs.Value.RoundTrip

/-!
# Envelopes through JSON trees

An envelope comes back from its tree in a normal form: a notification loses its correlation
identifier, and a float without a JSON form becomes null. In parameters that were built by changes
such a float stands only in a list, since a member never has it.

## Main definitions

* `Envelope.Obtainable` — what the constructors and the decoder make.
* `Envelope.normalForm` — what comes back from the tree.

## Main statements

* `Envelope.obtainable_iff` — envelopes with well-formed parameters are obtainable.
* `Envelope.decode_encode_eq_normalForm` — an envelope through its tree.
-/

namespace HeadUnit.Envelope

/-! ## Envelopes that can be made -/

/-- Envelopes of the constructors and the decoder; the parameters may be replaced afterwards. -/
inductive Obtainable : Envelope → Prop where
  | make (kind : MessageKind) (name : String) (correlation : Option UInt32) {p : Params}
    (h : p.Built) : Obtainable (.make kind name correlation p)
  | request (name : String) (correlation : UInt32) {p : Params} (h : p.Built) :
    Obtainable (.request name correlation p)
  | response (name : String) (correlation : UInt32) {p : Params} (h : p.Built) :
    Obtainable (.response name correlation p)
  | notification (name : String) {p : Params} (h : p.Built) : Obtainable (.notification name p)
  | decode {tree : Json} {e : Envelope} (h : decode tree = .ok e) : Obtainable e
  | decodeBytes {frame : ByteArray} {e : Envelope} (h : decodeBytes frame = .ok e) : Obtainable e
  | withParams {e : Envelope} {p : Params} (he : Obtainable e) (h : p.Built) :
    Obtainable { e with params := p }

theorem wellFormed_readParams (body : Members Json) : (readParams body).WellFormed := by
  unfold readParams
  split
  · exact Params.wellFormed_ofJson _
  · exact Params.wellFormed_empty

theorem wellFormed_decode {tree : Json} {e : Envelope} (h : decode tree = .ok e) :
    e.params.WellFormed := by
  unfold decode at h
  split at h
  · cases h
  split at h
  · cases h
  · cases h
  split at h
  · cases h
  cases h
  exact wellFormed_readParams _

theorem wellFormed_decodeBytes {frame : ByteArray} {e : Envelope} (h : decodeBytes frame = .ok e) :
    e.params.WellFormed := by
  unfold decodeBytes at h
  split at h
  · cases h
  · exact wellFormed_decode h

theorem Obtainable.wellFormed {e : Envelope} (h : e.Obtainable) : e.params.WellFormed := by
  induction h with
  | make _ _ _ h | request _ _ h | response _ _ h | notification _ h | withParams _ h =>
    exact h.wellFormed
  | decode h => exact wellFormed_decode h
  | decodeBytes h => exact wellFormed_decodeBytes h

/-- Only the decoder gives a notification a correlation identifier. -/
theorem obtainable_notification (name : String) (correlation : UInt32) {p : Params} (h : p.Built) :
    Obtainable ⟨.notification, name, some correlation, p⟩ :=
  have hdecode := decode_tag_bodyWith .notification (request name correlation .empty) .null
  (Obtainable.decode hdecode).withParams h

/-- Every envelope with well-formed parameters can be made. -/
theorem obtainable_iff (e : Envelope) : e.Obtainable ↔ e.params.WellFormed := by
  refine ⟨Obtainable.wellFormed, fun h => ?_⟩
  obtain ⟨kind, name, correlation, p⟩ := e
  cases kind with
  | request => exact .make .request name correlation h.built
  | response => exact .make .response name correlation h.built
  | notification =>
    cases correlation with
    | none => exact .notification name h.built
    | some n => exact obtainable_notification name n h.built

/-! ## The normal form -/

/-- The envelope without what does not travel: a notification's correlation identifier, and the
floats that have no JSON form, for which null stands. -/
def normalForm (e : Envelope) : Envelope :=
  { e with correlation := e.sentCorrelation, params := e.params.jsonForm }

theorem sentCorrelation_normalForm (e : Envelope) :
    e.normalForm.sentCorrelation = e.sentCorrelation := by
  unfold normalForm sentCorrelation
  split <;> rfl

theorem normalForm_normalForm (e : Envelope) : e.normalForm.normalForm = e.normalForm := by
  have hparams : e.params.jsonForm.jsonForm = e.params.jsonForm :=
    Params.jsonForm_eq_self (Params.isFinite_jsonForm e.params)
  rw [normalForm, sentCorrelation_normalForm]
  exact congrArg _ hparams

/-- An envelope and its normal form have the same tree. -/
theorem encode_normalForm (e : Envelope) : e.normalForm.encode = e.encode := by
  have hbody : e.normalForm.body = e.body := by
    unfold body
    rw [sentCorrelation_normalForm]
    simp only [normalForm, Params.toJson_jsonForm]
  rw [encode, hbody]
  rfl

theorem sentCorrelation_eq_self_iff (e : Envelope) :
    e.sentCorrelation = e.correlation ↔ (e.kind = .notification → e.correlation = none) := by
  obtain ⟨kind, name, correlation, p⟩ := e
  cases kind <;> simp [sentCorrelation, MessageKind.isCorrelated, eq_comm]

theorem normalForm_eq_self_iff (e : Envelope) : e.normalForm = e ↔
    (e.kind = .notification → e.correlation = none) ∧ e.params.IsFinite := by
  rw [← sentCorrelation_eq_self_iff, ← Params.jsonForm_eq_self_iff]
  obtain ⟨kind, name, correlation, p⟩ := e
  simp [normalForm]

/-- An envelope with well-formed parameters comes back in its normal form. -/
theorem decode_encode_of_wellFormed {e : Envelope} (h : e.params.WellFormed) :
    decode e.encode = .ok e.normalForm := by
  rw [decode_encode, Params.ofJson_toJson_eq_jsonForm h]
  rfl

/-- An envelope comes back from its tree in its normal form. So exactly the envelopes in normal
form come back as they were: those without a notification's correlation identifier and without
floats that have no JSON form. -/
theorem decode_encode_eq_normalForm {e : Envelope} (h : e.Obtainable) :
    decode e.encode = .ok e.normalForm ∧
      (decode e.encode = .ok e ↔ e.normalForm = e) ∧
      (e.normalForm = e ↔ (e.kind = .notification → e.correlation = none) ∧ e.params.IsFinite) ∧
      e.normalForm.normalForm = e.normalForm ∧
      e.normalForm.encode = e.encode := by
  have hdecode := decode_encode_of_wellFormed h.wellFormed
  refine ⟨hdecode, ?_, normalForm_eq_self_iff e, normalForm_normalForm e, encode_normalForm e⟩
  rw [hdecode, Except.ok.injEq]

/-- A notification with an identifier of its own and a list with a NaN. -/
theorem decode_encode_eq_normalForm_notification :
    let nan : Binary64 := ⟨0x7ff8000000000000⟩
    let e : Envelope := ⟨.notification, "OnVehicleData", some 7,
      ⟨[("odometer", .integer 5), ("readings", .list [.float nan, .null, .float .zero])]⟩⟩
    e.Obtainable ∧ decode e.encode = .ok ⟨.notification, "OnVehicleData", none,
      ⟨[("odometer", .integer 5), ("readings", .list [.null, .null, .float .zero])]⟩⟩ := by
  intro nan e
  have hkeys : ["odometer", "readings"].Pairwise (· < ·) := by decide
  have h : e.Obtainable := (obtainable_iff e).2
    ⟨hkeys, ⟨rfl, trivial⟩, ⟨rfl, trivial, trivial, trivial, trivial⟩, trivial⟩
  have hform : e.normalForm = ⟨.notification, "OnVehicleData", none,
      ⟨[("odometer", .integer 5), ("readings", .list [.null, .null, .float .zero])]⟩⟩ := by
    decide
  exact ⟨h, hform ▸ (decode_encode_eq_normalForm h).1⟩

end HeadUnit.Envelope
