import HeadUnit.Envelope

/-!
# Envelopes from bodies

The decoder finds the name and the correlation identifier of a body that the encoder wrote, and
reads its parameters, whatever tree stands in their place.

## Main definitions

* `Envelope.bodyWith` — the body with any tree for the parameters.

## Main statements

* `Envelope.decode_tag_bodyWith` — a tagged body is decoded.
* `Envelope.decode_encode` — an envelope through its tree.
-/

namespace HeadUnit

/-- Every correlation identifier has a JSON form. -/
theorem Json.ofInt_toNat (n : UInt32) :
    ∃ low high, ofInt n.toNat = .integer n.toNat low high := by
  have hlt := n.toNat_lt
  exact ⟨by omega, by omega, dif_pos ⟨by omega, by omega⟩⟩

namespace Envelope

theorem tags_singleton (kind : MessageKind) (body : Json) : tags [(kind.tag, body)] = [kind] := by
  cases kind <;> rfl

/-- The body's members with `params` for the parameters. -/
def bodyWith (e : Envelope) (params : Json) : Members Json :=
  let correlation := match e.sentCorrelation with
    | some n => [("correlationID", Json.ofInt n.toNat)]
    | none => []
  correlation ++ [("name", .string e.name), ("parameters", params)]

theorem encode_eq_bodyWith (e : Envelope) :
    e.encode = .object [(e.kind.tag, .object (e.bodyWith e.params.toJson))] := rfl

theorem readName_bodyWith (e : Envelope) (params : Json) :
    readName (e.bodyWith params) = e.name := by
  unfold readName bodyWith
  cases e.sentCorrelation <;> simp

theorem readCorrelation_bodyWith (e : Envelope) (params : Json) :
    readCorrelation (e.bodyWith params) = e.sentCorrelation := by
  unfold readCorrelation bodyWith
  cases e.sentCorrelation with
  | none => simp
  | some n =>
    obtain ⟨low, high, h⟩ := Json.ofInt_toNat n
    have hlt := n.toNat_lt
    have hword : (0 : Int) ≤ n.toNat ∧ (n.toNat : Int) < 0x100000000 := by omega
    simp [h, hword]

theorem readParams_bodyWith (e : Envelope) (params : Json) :
    readParams (e.bodyWith params) = .ofJson params := by
  unfold readParams bodyWith
  cases e.sentCorrelation <;> simp

/-- The decoder reads a body alike under every tag. -/
theorem decode_tag_bodyWith (kind : MessageKind) (e : Envelope) (params : Json) :
    decode (.object [(kind.tag, .object (e.bodyWith params))]) =
      .ok ⟨kind, e.name, e.sentCorrelation, .ofJson params⟩ := by
  simp only [decode, Json.members?, tags_singleton, Members.get?_cons, if_true,
    Option.bind_some, readName_bodyWith, readCorrelation_bodyWith, readParams_bodyWith]

/-- What an envelope is after encoding and decoding. -/
theorem decode_encode (e : Envelope) :
    decode e.encode = .ok ⟨e.kind, e.name, e.sentCorrelation, .ofJson e.params.toJson⟩ := by
  rw [encode_eq_bodyWith, decode_tag_bodyWith]

end Envelope

end HeadUnit
