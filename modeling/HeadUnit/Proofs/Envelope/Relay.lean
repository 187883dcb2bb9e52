import HeadUnit.Proofs.Envelope.NormalForm
import HeadUnit.Proofs.Value.Relay

/-!
# Relaying envelopes

A relay decodes a tree and encodes the envelope again. What it sends has the name, the correlation
identifier and the parameters of the tree, as far as they have the right form; only null members
and integers beyond the signed words are not kept as they are.

## Main definitions

* `Envelope.relayedBody` — the body that a relay sends for a body.

## Main statements

* `Envelope.encode_of_decode` — what a relay sends.
-/

namespace HeadUnit

namespace Json

/-- The text of a tree that is one. -/
def text? : Json → Option String
  | .string s => some s
  | _ => none

/-- Whether the tree is an integer of thirty-two unsigned bits. -/
def isIdentifier : Json → Bool
  | .integer n _ _ => decide (0 ≤ n ∧ n ≤ 0xffffffff)
  | _ => false

end Json

namespace Envelope

variable {e : Envelope} {tree : Json} {members body : Members Json}

/-- The body that a relay sends for `body` under the tag of `kind`. -/
def relayedBody (kind : MessageKind) (body : Members Json) : Members Json :=
  let identifier := (Members.get? "correlationID" body).filter fun json =>
    kind.isCorrelated && json.isIdentifier
  let name := (Members.get? "name" body).bind Json.text?
  let params := (Members.get? "parameters" body).bind Json.members?
  identifier.toList.map ("correlationID", ·) ++
    [("name", .string (name.getD "")),
      ("parameters", (Json.object (params.getD [])).withoutNulls.widened)]

/-! ## The parts of a body -/

theorem readName_eq (body : Members Json) :
    readName body = ((Members.get? "name" body).bind Json.text?).getD "" := by
  unfold readName
  rcases Members.get? "name" body with _ | json
  · rfl
  · cases json <;> rfl

/-- The identifier that is read is sent as it came. -/
theorem ofInt_readCorrelation (body : Members Json) :
    (readCorrelation body).map (fun n => Json.ofInt n.toNat) =
      (Members.get? "correlationID" body).filter Json.isIdentifier := by
  unfold readCorrelation
  rcases Members.get? "correlationID" body with _ | json
  · rfl
  cases json with
  | integer n low high =>
    by_cases hword : 0 ≤ n ∧ n < 0x100000000
    · have hid : (Json.integer n low high).isIdentifier = true := decide_eq_true (by omega)
      have hmod : (UInt32.ofNat n.toNat).toNat = n.toNat := Nat.mod_eq_of_lt (by omega)
      have hnat : ((UInt32.ofNat n.toNat).toNat : Int) = n := by omega
      have hsent : Json.ofInt (UInt32.ofNat n.toNat).toNat = .integer n low high := by
        rw [hnat]
        exact dif_pos ⟨low, high⟩
      dsimp only
      rw [if_pos hword, Option.map_some, hsent, Option.filter_some, if_pos hid]
    · have hid : (Json.integer n low high).isIdentifier = false := decide_eq_false (by omega)
      dsimp only
      rw [if_neg hword, Option.map_none, Option.filter_some, hid]
      rfl
  | _ => rfl

theorem toJson_readParams (h : (Json.object body).WellFormed) : (readParams body).toJson =
    (Json.object (((Members.get? "parameters" body).bind Json.members?).getD
      [])).withoutNulls.widened := by
  unfold readParams
  cases hget : Members.get? "parameters" body with
  | none => rfl
  | some json =>
    cases json with
    | object members => exact Params.toJson_ofMembers (h.get? hget)
    | _ => rfl

theorem body_eq_relayedBody (kind : MessageKind) (h : (Json.object body).WellFormed) :
    (Envelope.mk kind (readName body) (readCorrelation body) (readParams body)).body =
      relayedBody kind body := by
  have hidentifier := ofInt_readCorrelation body
  unfold Envelope.body relayedBody sentCorrelation
  rw [toJson_readParams h, readName_eq]
  cases hkind : kind.isCorrelated with
  | false => simp
  | true =>
    simp only [if_true, Bool.true_and, ← hidentifier]
    cases readCorrelation body <;> rfl

/-! ## What is relayed -/

/-- A tree that is decoded has one tag, and its body is an object. -/
theorem exists_of_decode (h : decode tree = .ok e) :
    ∃ members body, tree = .object members ∧ tags members = [e.kind] ∧
      Members.get? e.kind.tag members = some (.object body) ∧
      e = ⟨e.kind, readName body, readCorrelation body, readParams body⟩ := by
  cases tree with
  | object members =>
    rw [decode, Json.members?] at h
    dsimp only at h
    split at h
    case h_1 | h_2 => cases h
    case h_3 kind htags =>
      cases hbody : (Members.get? kind.tag members).bind Json.members? with
      | none =>
        rw [hbody] at h
        cases h
      | some body =>
        rw [hbody] at h
        cases h
        obtain ⟨json, hget, hjson⟩ := Option.bind_eq_some_iff.1 hbody
        cases json with
        | object ms =>
          cases hjson
          exact ⟨members, body, rfl, htags, hget, rfl⟩
        | _ => cases hjson
  | _ => cases h

/-- Exactly the objects with one tag and an object under it are decoded. -/
theorem decode_eq_ok (kind : MessageKind) (htags : tags members = [kind])
    (hbody : Members.get? kind.tag members = some (.object body)) :
    decode (.object members) =
      .ok ⟨kind, readName body, readCorrelation body, readParams body⟩ := by
  rw [decode, Json.members?]
  dsimp only
  rw [htags]
  dsimp only
  rw [hbody]
  rfl

/-- Null members of the body do not change what is relayed. -/
theorem relayedBody_withoutNullsMembers (kind : MessageKind) (h : Members.Ascending body) :
    relayedBody kind (Json.withoutNullsMembers body) = relayedBody kind body := by
  have hidentifier : (Members.get? "correlationID" (Json.withoutNullsMembers body)).filter
        (fun json => kind.isCorrelated && json.isIdentifier) =
      (Members.get? "correlationID" body).filter fun json =>
        kind.isCorrelated && json.isIdentifier := by
    rw [Json.get?_withoutNullsMembers h]
    rcases Members.get? "correlationID" body with _ | json
    · rfl
    · cases json <;> cases kind.isCorrelated <;> rfl
  have hname : (Members.get? "name" (Json.withoutNullsMembers body)).bind Json.text? =
      (Members.get? "name" body).bind Json.text? := by
    rw [Json.get?_withoutNullsMembers h]
    rcases Members.get? "name" body with _ | json
    · rfl
    · cases json <;> rfl
  have hparams : (Members.get? "parameters" (Json.withoutNullsMembers body)).bind Json.members? =
      ((Members.get? "parameters" body).bind Json.members?).map Json.withoutNullsMembers := by
    rw [Json.get?_withoutNullsMembers h]
    rcases Members.get? "parameters" body with _ | json
    · rfl
    · cases json <;> rfl
  have hobject : (Json.object ((((Members.get? "parameters" body).bind Json.members?).map
        Json.withoutNullsMembers).getD [])).withoutNulls =
      (Json.object (((Members.get? "parameters" body).bind Json.members?).getD
        [])).withoutNulls := by
    cases (Members.get? "parameters" body).bind Json.members? with
    | none => rfl
    | some members => exact Json.withoutNulls_withoutNulls (.object members)
  unfold relayedBody
  dsimp only
  rw [hidentifier, hname, hparams, hobject]

/-- A frame keeps its tags when the body under one of them is replaced. -/
theorem tags_insert {kind : MessageKind} {json : Json}
    (h : Members.get? kind.tag members = some json) (other : Json) :
    tags (Members.insert kind.tag other members) = tags members := by
  refine List.filter_congr fun k _ => ?_
  rw [Members.contains, Members.contains, Members.get?_insert]
  split
  case isTrue htag => rw [← htag, h]; rfl
  case isFalse => rfl

/-- A relay sends one tag with one body: the name, empty where the frame has no text for it; the
identifier, if the kind has one and it is an integer of thirty-two bits; and the parameters, empty
where the frame has no object for them, without their null members and with doubles for integers
beyond the signed words. Relaying again changes nothing, and frames whose bodies differ in null
members only are relayed alike. -/
theorem encode_of_decode (htree : tree.WellFormed) (h : decode tree = .ok e) :
    ∃ members body, tree = .object members ∧
      Members.get? e.kind.tag members = some (.object body) ∧
      e.encode = .object [(e.kind.tag, .object (relayedBody e.kind body))] ∧
      (∃ again, decode e.encode = .ok again ∧ again.encode = e.encode) ∧
      ∀ body', (Json.object body').WellFormed →
        (Json.object body').withoutNulls = (Json.object body).withoutNulls →
        ∃ other, decode (.object (Members.insert e.kind.tag (.object body') members)) = .ok other ∧
          other.encode = e.encode := by
  obtain ⟨members, body, rfl, htags, hget, he⟩ := exists_of_decode h
  have hbody : (Json.object body).WellFormed := htree.get? hget
  have hencode : ∀ body', (Json.object body').WellFormed →
      (Envelope.mk e.kind (readName body') (readCorrelation body') (readParams body')).encode =
        .object [(e.kind.tag, .object (relayedBody e.kind body'))] := by
    intro body' hbody'
    rw [encode, body_eq_relayedBody e.kind hbody']
  have hsent : e.encode = .object [(e.kind.tag, .object (relayedBody e.kind body))] := by
    rw [← hencode body hbody, ← he]
  refine ⟨members, body, rfl, hget, hsent, ?_, ?_⟩
  · exact ⟨e.normalForm, decode_encode_of_wellFormed (wellFormed_decode h), encode_normalForm e⟩
  · intro body' hbody' hsame
    refine ⟨⟨e.kind, readName body', readCorrelation body', readParams body'⟩,
      decode_eq_ok e.kind ((tags_insert hget _).trans htags) ?_, ?_⟩
    · rw [Members.get?_insert, if_pos rfl]
    · have hmembers : Json.withoutNullsMembers body' = Json.withoutNullsMembers body :=
        Json.object.inj hsame
      rw [hencode body' hbody', hsent, ← relayedBody_withoutNullsMembers e.kind hbody'.1,
        hmembers, relayedBody_withoutNullsMembers e.kind hbody.1]

/-- A request without a usable name, with null members at two depths, a null item, and an integer
above the signed words. -/
theorem encode_of_decode_request :
    let seven : Json := .integer 7 (by decide) (by decide)
    let items : Json := .array [.null, .object [("on", .null)],
      .integer 0x8000000000000000 (by decide) (by decide)]
    let body : Members Json := [("correlationID", seven), ("name", .null),
      ("parameters", .object [("gear", .null), ("readings", items)])]
    let e : Envelope := ⟨.request, "", some 7, ⟨[("readings",
      .list [.null, .struct [], .float ⟨0x43e0000000000000⟩])]⟩⟩
    let sent : Json := .array [.null, .object [], .float ⟨0x43e0000000000000⟩ rfl]
    (Json.object [("request", .object body)]).WellFormed ∧
      decode (.object [("request", .object body)]) = .ok e ∧
      e.encode = .object [("request", .object [("correlationID", seven), ("name", .string ""),
        ("parameters", .object [("readings", sent)])])] := by
  intro seven items body e sent
  have hkeys : ["correlationID", "name", "parameters"].Pairwise (· < ·) := by decide
  have hparams : ["gear", "readings"].Pairwise (· < ·) := by decide
  have hitems : items.WellFormed :=
    ⟨trivial, ⟨List.pairwise_singleton .., trivial, trivial⟩, trivial, trivial⟩
  have htree : (Json.object [("request", .object body)]).WellFormed :=
    ⟨List.pairwise_singleton ..,
      ⟨hkeys, trivial, trivial, ⟨hparams, trivial, hitems, trivial⟩, trivial⟩, trivial⟩
  have he : Envelope.mk .request (readName body) (readCorrelation body) (readParams body) = e := by
    decide +kernel
  have hdecode : decode (.object [("request", .object body)]) = .ok e :=
    (decode_eq_ok .request rfl rfl).trans (congrArg Except.ok he)
  have hlarge : Json.ofFloat (.ofInt 0x8000000000000000) =
      .float ⟨0x43e0000000000000⟩ rfl := by
    have hvalue : Binary64.ofInt 0x8000000000000000 = ⟨0x43e0000000000000⟩ := by decide +kernel
    rw [hvalue]
    rfl
  have hrelayed : relayedBody .request body = [("correlationID", seven), ("name", .string ""),
      ("parameters", .object [("readings", sent)])] := by
    simp [relayedBody, Json.isIdentifier, Json.text?, Json.members?, Json.withoutNulls,
      Json.withoutNullsItems, Json.withoutNullsMembers, Json.widened, Json.widenedItems,
      Json.widenedMembers, Json.isNull, MessageKind.isCorrelated, Option.filter, hlarge, body,
      items, seven, sent]
  obtain ⟨members, inner, hmembers, hget, hencode, -⟩ := encode_of_decode htree hdecode
  obtain rfl := Json.object.inj hmembers
  obtain rfl := Json.object.inj (Option.some.inj hget)
  refine ⟨htree, hdecode, hencode.trans ?_⟩
  rw [← hrelayed]
  rfl

end Envelope

end HeadUnit
