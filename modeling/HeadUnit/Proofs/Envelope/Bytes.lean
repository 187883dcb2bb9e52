import HeadUnit.Frame
import HeadUnit.Proofs.Envelope.NormalForm
import HeadUnit.Proofs.Value.Text

/-!
# Envelopes through frames

The frame of an envelope is read as the envelope's tree, with doubles as their digits are read,
unless too many arrays and objects enclose a place of it: then it is refused. An embedded text among
the parameters is read as what it writes, and the frame is refused if it writes nothing.

## Main statements

* `Envelope.decodeBytes_encodeBytes_reread` — what the frame of any envelope is read as.
* `Envelope.decodeBytes_encodeBytes` — the same for doubles that are read back.
* `Envelope.decodeBytes_encodeBytes_eq_decode_encode` — when frames agree with trees, and which
  frames are accepted.
* `Envelope.not_forall_decodeBytes_encodeBytes_eq` — frames with embedded text need not agree.
-/

namespace HeadUnit

namespace Json

/-- The bytes of a text are read as the text. -/
theorem ofUtf8?_toUTF8 (s : String) : ofUtf8? s.toUTF8 = parse? s := by
  have hread : String.fromUTF8? s.toUTF8 = some s := dif_pos s.isValidUTF8
  rw [ofUtf8?, hread]
  rfl

end Json

namespace Envelope

variable {e : Envelope}

/-! ## The tree around the parameters -/

/-- The name and the parameters follow the correlation identifier, if there is one. -/
theorem bodyWith_cases (e : Envelope) :
    (∀ params, e.bodyWith params = [("name", .string e.name), ("parameters", params)]) ∨
      ∃ n low high, ∀ params, e.bodyWith params =
        [("correlationID", .integer n low high), ("name", .string e.name),
          ("parameters", params)] := by
  unfold bodyWith
  cases e.sentCorrelation with
  | none => exact .inl fun _ => rfl
  | some n =>
    obtain ⟨low, high, h⟩ := Json.ofInt_toNat n
    exact .inr ⟨n.toNat, low, high, fun _ => by simp [h]⟩

theorem wellFormed_encode (h : e.params.WellFormed) : e.encode.WellFormed := by
  have hparams : e.params.toJson.WellFormed := Value.wellFormed_toJson e.params.toValue h
  have hkeys : ["correlationID", "name", "parameters"].Pairwise (· < ·) := by decide
  rw [encode_eq_bodyWith]
  obtain hbody | ⟨n, low, high, hbody⟩ := bodyWith_cases e <;> rw [hbody]
  · exact ⟨List.pairwise_singleton .., ⟨hkeys.tail, trivial, hparams, trivial⟩, trivial⟩
  · exact ⟨List.pairwise_singleton .., ⟨hkeys, trivial, trivial, hparams, trivial⟩, trivial⟩

/-- Only the parameters hold doubles. -/
theorem reread_encode (e : Envelope) :
    e.encode.reread = .object [(e.kind.tag, .object (e.bodyWith e.params.toJson.reread))] := by
  rw [encode_eq_bodyWith]
  obtain hbody | ⟨n, low, high, hbody⟩ := bodyWith_cases e <;> rw [hbody, hbody] <;> rfl

/-- The parameters stand in the body, and the body in the outer object. -/
theorem nesting_encode (e : Envelope) : e.encode.nesting = e.params.toJson.nesting + 2 := by
  rw [encode_eq_bodyWith]
  obtain hbody | ⟨n, low, high, hbody⟩ := bodyWith_cases e <;>
    simp [hbody, Json.nesting, Json.nestingMembers]

/-- Neither the outer object nor the body has the embedding key. -/
theorem unembed?_tag_bodyWith (e : Envelope) (params : Json) :
    Json.unembed? (.object [(e.kind.tag, .object (e.bodyWith params))]) =
      params.unembed?.map fun params => .object [(e.kind.tag, .object (e.bodyWith params))] := by
  have htag : Json.embeds [(e.kind.tag, .object (e.bodyWith params))] = false := by
    cases e.kind <;> rfl
  have hfirst : Json.embeds (e.bodyWith params) = false := by
    obtain hbody | ⟨n, low, high, hbody⟩ := bodyWith_cases e <;> rw [hbody] <;> rfl
  have hbody : Json.unembedMembers? (e.bodyWith params) = params.unembed?.map e.bodyWith := by
    obtain hbody | ⟨n, low, high, hbody⟩ := bodyWith_cases e <;>
      cases hparams : params.unembed? <;>
        simp [hbody, hparams, Json.unembedMembers?, Json.unembed?]
  rw [Json.unembed?, htag, Json.unembedMembers?, Json.unembed?, hfirst]
  cases hparams : params.unembed? <;> simp [hbody, hparams, Json.unembedMembers?]

/-! ## Frames -/

/-- What the frame of any envelope is read as: doubles are what their digits are read as, the
parameters may be what an embedded text writes, and nothing is read from a frame that is nested too
deeply. -/
theorem decodeBytes_encodeBytes_reread (h : e.params.WellFormed) :
    decodeBytes e.encodeBytes =
      match (if e.encode.nesting ≤ 127 then e.params.toJson.reread.unembed? else none) with
      | some params => .ok ⟨e.kind, e.name, e.sentCorrelation, .ofJson params⟩
      | none => .error (.malformedEnvelope .notJson) := by
  have hread : Json.ofUtf8? e.encodeBytes =
      if e.encode.nesting ≤ 127 then e.encode.reread.unembed? else none := by
    rw [encodeBytes, encodeText, Json.ofUtf8?_toUTF8,
      Json.parse?_render_reread (wellFormed_encode h)]
    rfl
  rw [decodeBytes, hread, reread_encode, unembed?_tag_bodyWith]
  by_cases hnesting : e.encode.nesting ≤ 127
  · rw [if_pos hnesting, if_pos hnesting]
    cases e.params.toJson.reread.unembed? with
    | none => rfl
    | some params => exact decode_tag_bodyWith e.kind e params
  · rw [if_neg hnesting, if_neg hnesting]

/-- What the frame of an envelope is read as if its doubles are read back: the parameters may be
what an embedded text writes, and nothing is read from a frame that is nested too deeply. -/
theorem decodeBytes_encodeBytes (h : e.params.WellFormed) (hfloats : e.params.toJson.ReadsBack) :
    decodeBytes e.encodeBytes =
      match (if e.encode.nesting ≤ 127 then e.params.toJson.unembed? else none) with
      | some params => .ok ⟨e.kind, e.name, e.sentCorrelation, .ofJson params⟩
      | none => .error (.malformedEnvelope .notJson) := by
  rw [decodeBytes_encodeBytes_reread h, Json.reread_eq_self _ hfloats]

/-- Legible parameters come back from the frame as they do from the tree. -/
theorem decodeBytes_encodeBytes_of_legible (h : e.params.WellFormed)
    (hlegible : e.params.toJson.Legible 125) : decodeBytes e.encodeBytes = .ok e.normalForm := by
  have hnesting : e.encode.nesting ≤ 127 := by
    have := hlegible.nesting_le
    rw [nesting_encode]
    omega
  rw [decodeBytes_encodeBytes h hlegible.readsBack, if_pos hnesting,
    Json.unembed?_eq_some _ hlegible.embedsNothing, ← decode_encode_of_wellFormed h, decode_encode]

end Envelope

namespace Frame

variable {e : Envelope} {limit : Nat} {frame : ByteArray}

/-- A frame that was sent is within the limit, so it is read. -/
theorem decode_of_encode (h : encode e limit = .ok frame) :
    decode frame limit = (Envelope.decodeBytes e.encodeBytes).map (⟨·, frame.size⟩) := by
  unfold encode at h
  dsimp only at h
  split at h
  · cases h
  · cases h
    rw [decode, if_neg ‹_›]

end Frame

namespace Envelope

variable {e : Envelope}

/-- If the frame is not nested too deeply and embeds no text, it is read as the tree is; if it is
nested too deeply, it is refused. -/
theorem decodeBytes_encodeBytes_eq_decode_encode (h : e.Obtainable)
    (hfloats : e.params.toJson.ReadsBack) :
    (e.params.toJson.EmbedsNothing → decodeBytes e.encodeBytes =
      if e.encode.nesting ≤ 127 then decode e.encode
      else .error (.malformedEnvelope .notJson)) ∧
    (decodeBytes e.encodeBytes =
      match (if e.encode.nesting ≤ 127 then e.params.toJson.unembed? else none) with
      | some params => .ok ⟨e.kind, e.name, e.sentCorrelation, .ofJson params⟩
      | none => .error (.malformedEnvelope .notJson)) ∧
    ∀ frame limit, Frame.encode e limit = .ok frame →
      ((∃ received, Frame.decode frame limit = .ok received) ↔
        e.encode.nesting ≤ 127 ∧ e.params.toJson.unembed?.isSome) ∧
      (e.params.toJson.EmbedsNothing →
        ((∃ received, Frame.decode frame limit = .ok received) ↔ e.encode.nesting ≤ 127)) := by
  have hbytes := decodeBytes_encodeBytes h.wellFormed hfloats
  have haccepted : ∀ frame limit, Frame.encode e limit = .ok frame →
      ((∃ received, Frame.decode frame limit = .ok received) ↔
        e.encode.nesting ≤ 127 ∧ e.params.toJson.unembed?.isSome) := by
    intro frame limit hframe
    rw [Frame.decode_of_encode hframe, hbytes]
    by_cases hnesting : e.encode.nesting ≤ 127
    · cases e.params.toJson.unembed? <;> simp [Except.map, hnesting]
    · simp [Except.map, hnesting]
  refine ⟨fun hplain => ?_, hbytes, fun frame limit hframe => ⟨haccepted frame limit hframe, ?_⟩⟩
  · rw [hbytes, Json.unembed?_eq_some _ hplain, decode_encode]
    by_cases hnesting : e.encode.nesting ≤ 127 <;> simp [hnesting]
  · intro hplain
    rw [haccepted frame limit hframe, Json.unembed?_eq_some _ hplain]
    simp

/-- A request with a control character, a quote and the float one half. -/
theorem decodeBytes_encodeBytes_eq_decode_encode_systemRequest :
    let e : Envelope := ⟨.request, "SystemRequest", some 9,
      ⟨[("data", .list [.text "\x01\"", .null]), ("scale", .float ⟨0x3fe0000000000000⟩)]⟩⟩
    e.Obtainable ∧ e.params.toJson.ReadsBack ∧ e.params.toJson.EmbedsNothing ∧
      decodeBytes e.encodeBytes = decode e.encode := by
  intro e
  have hkeys : ["data", "scale"].Pairwise (· < ·) := by decide
  have hobtainable : e.Obtainable := (obtainable_iff e).2
    ⟨hkeys, ⟨rfl, trivial, trivial, trivial⟩, ⟨rfl, trivial⟩, trivial⟩
  have htree : e.params.toJson = .object [("data", .array [.string "\x01\"", .null]),
      ("scale", .float ⟨0x3fe0000000000000⟩ rfl)] := rfl
  have hfloats : e.params.toJson.ReadsBack := by
    have hdigits : (⟨0x3fe0000000000000⟩ : Binary64).render Json.floatLayout = ['0', '.', '5'] := by
      decide +kernel
    have hvalue : (⟨false, ['0'], some ['5'], none⟩ : Json.Numeral).toFloat? =
        some ⟨0x3fe0000000000000⟩ := by
      decide +kernel
    rw [htree]
    refine ⟨⟨trivial, trivial, trivial⟩, ⟨⟨false, ['0'], some ['5'], none⟩, ?_, ?_⟩, trivial⟩
    · rw [hdigits]
      rfl
    · exact congrArg (Option.map Json.ofFloat) hvalue
  have hplain : e.params.toJson.EmbedsNothing := by
    rw [htree]
    exact ⟨rfl, ⟨trivial, trivial, trivial⟩, trivial, trivial⟩
  refine ⟨hobtainable, hfloats, hplain, ?_⟩
  rw [(decodeBytes_encodeBytes_eq_decode_encode hobtainable hfloats).1 hplain, if_pos (by decide)]

/-- Parameters whose first key is the embedding key make a frame that is refused, although its tree
is an envelope. -/
theorem not_forall_decodeBytes_encodeBytes_eq : ¬ ∀ e : Envelope, e.Obtainable →
    e.params.toJson.ReadsBack → e.encode.nesting ≤ 127 →
    decodeBytes e.encodeBytes = decode e.encode := by
  intro hall
  have hp : Params.WellFormed ⟨[(Json.embeddingKey, .integer 7)]⟩ :=
    ⟨List.pairwise_singleton .., ⟨rfl, trivial⟩, trivial⟩
  have htree : Params.toJson ⟨[(Json.embeddingKey, .integer 7)]⟩ =
      .object [(Json.embeddingKey, .integer 7 (by decide) (by decide))] := rfl
  have hfloats : (Params.toJson ⟨[(Json.embeddingKey, .integer 7)]⟩).ReadsBack := by
    rw [htree]
    exact ⟨trivial, trivial⟩
  have hrefused : (Params.toJson ⟨[(Json.embeddingKey, .integer 7)]⟩).unembed? = none := by
    rw [htree]
    rfl
  have hagree := hall (request "n" 1 _) (.request "n" 1 hp.built) hfloats (by decide)
  rw [decodeBytes_encodeBytes hp hfloats, decode_encode] at hagree
  simp [request, hrefused] at hagree

end Envelope

end HeadUnit
