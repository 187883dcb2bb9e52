import HeadUnit.Proofs.Envelope.Relay

/-!
# Which trees are envelopes

A tree is an envelope if exactly one tag is a key of it and an object stands under this tag. What
else the tree holds does not count, and of the body only the name, the correlation identifier and
the parameters do. No form of these three is refused.

## Main definitions

* `Envelope.tagged` — the tags among the keys, in the order of the keys.
* `Envelope.HasFault` — what keeps a tree from being an envelope.

## Main statements

* `Envelope.decode_eq_error_iff` — the error is the fault of the tree.
* `Envelope.decode_isOk_iff` — which trees are decoded.
* `Envelope.decode_eq_of_same_parts` — what counts of a tree.
* `Envelope.decode_iff_soleTag` — all of this together.
-/

namespace HeadUnit.Envelope

variable {tree : Json} {members body : Members Json} {kind : MessageKind} {e : Envelope}

/-! ## Tags -/

/-- The kinds whose tags are keys, in the order of the keys. -/
def tagged (members : Members Json) : List MessageKind :=
  (Members.keys members).filterMap MessageKind.ofTag?

/-- The tag of the kind is the only one among the keys. -/
def SoleTag (members : Members Json) (kind : MessageKind) : Prop :=
  ∀ other : MessageKind, other.tag ∈ Members.keys members ↔ other = kind

theorem mem_tags_iff : kind ∈ tags members ↔ kind.tag ∈ Members.keys members := by
  have hall : kind ∈ [MessageKind.notification, .request, .response] := by
    cases kind <;> simp
  rw [tags, List.mem_filter, Members.contains, Members.get?_isSome_iff]
  exact and_iff_right hall

theorem mem_tagged_iff : kind ∈ tagged members ↔ kind.tag ∈ Members.keys members := by
  rw [tagged, List.mem_filterMap]
  simp only [MessageKind.ofTag?_eq_some_iff, exists_eq_right]

/-- The decoder looks for the tags in the order that the keys of an object have. -/
theorem tagged_eq_tags (h : Members.Ascending members) : tagged members = tags members := by
  have htags : (tags members).Pairwise fun k other => k.tag < other.tag :=
    List.Pairwise.sublist List.filter_sublist (by decide)
  have htagged : (tagged members).Pairwise fun k other => k.tag < other.tag := by
    refine List.pairwise_filterMap.2 (List.Pairwise.imp ?_ h)
    intro key key' hlt k hk other hother
    rw [MessageKind.ofTag?_eq_some_iff] at hk hother
    exact hk ▸ hother ▸ hlt
  have hnodup {kinds : List MessageKind}
      (hkinds : kinds.Pairwise fun k other => k.tag < other.tag) : kinds.Nodup := by
    apply hkinds.imp
    rintro k _ hlt rfl
    exact String.lt_irrefl k.tag hlt
  refine List.Perm.eq_of_pairwise (fun k other _ _ hlt hgt => ?_) htagged htags ?_
  · exact absurd hgt (String.lt_asymm hlt)
  · refine (List.perm_ext_iff_of_nodup (hnodup htagged) (hnodup htags)).2 fun k => ?_
    rw [mem_tagged_iff, mem_tags_iff]

theorem tags_eq_singleton_iff : tags members = [kind] ↔ SoleTag members kind := by
  constructor
  · intro h other
    rw [← mem_tags_iff, h, List.mem_singleton]
  · intro h
    have hnodup : (tags members).Nodup := List.Nodup.sublist List.filter_sublist (by decide)
    refine List.perm_singleton.1 ((List.perm_ext_iff_of_nodup hnodup (List.nodup_singleton kind)).2
      fun other => ?_)
    rw [mem_tags_iff, List.mem_singleton, h other]

/-! ## Faults -/

/-- What keeps a tree from being an envelope: it is no object, it has no tag or more than one, of
which the first two are named, or what stands under its only tag is no object. -/
inductive HasFault : Json → EnvelopeFault → Prop where
  | notObject {tree : Json} (h : tree.members? = none) : HasFault tree (.notObject tree.shape)
  | noTag {members : Members Json} (h : tagged members = []) : HasFault (.object members) .noTag
  | twoTags {members : Members Json} {first second : MessageKind} {rest : List MessageKind}
      (h : tagged members = first :: second :: rest) :
      HasFault (.object members) (.twoTags first second)
  | bodyNotObject {members : Members Json} {kind : MessageKind} {body : Json}
      (h : tagged members = [kind]) (hbody : Members.get? kind.tag members = some body)
      (hobject : body.members? = none) : HasFault (.object members) (.bodyNotObject kind)

theorem decode_of_hasFault (htree : tree.WellFormed) {fault : EnvelopeFault}
    (h : HasFault tree fault) : decode tree = .error (.malformedEnvelope fault) := by
  cases h with
  | notObject h =>
    unfold decode
    rw [h]
  | noTag h | twoTags h =>
    rw [tagged_eq_tags htree.1] at h
    simp only [decode, Json.members?, h]
  | bodyNotObject h hbody hobject =>
    rw [tagged_eq_tags htree.1] at h
    unfold decode
    simp only [Json.members?.eq_1, h, hbody, Option.bind_some, hobject]

/-- A tree has a fault, or it has a sole tag with a body under it. -/
theorem decode_cases (htree : tree.WellFormed) :
    (∃ fault, HasFault tree fault ∧ decode tree = .error (.malformedEnvelope fault)) ∨
    ∃ members kind body, tree = .object members ∧ SoleTag members kind ∧
      Members.get? kind.tag members = some (.object body) ∧
      decode tree = .ok ⟨kind, readName body, readCorrelation body, readParams body⟩ := by
  have hfaulty {fault : EnvelopeFault} (h : HasFault tree fault) :
      ∃ fault, HasFault tree fault ∧ decode tree = .error (.malformedEnvelope fault) :=
    ⟨fault, h, decode_of_hasFault htree h⟩
  cases tree with
  | object members =>
    match htagged : tagged members with
    | [] => exact .inl (hfaulty (.noTag htagged))
    | first :: second :: rest => exact .inl (hfaulty (.twoTags htagged))
    | [kind] =>
      have hkey : kind.tag ∈ Members.keys members := mem_tagged_iff.1 (by simp [htagged])
      obtain ⟨json, hjson⟩ := Option.isSome_iff_exists.1 ((Members.get?_isSome_iff _ _).2 hkey)
      cases json with
      | object body =>
        have htags : tags members = [kind] := tagged_eq_tags htree.1 ▸ htagged
        exact .inr ⟨members, kind, body, rfl, tags_eq_singleton_iff.1 htags, hjson,
          decode_eq_ok kind htags hjson⟩
      | _ => exact .inl (hfaulty (.bodyNotObject htagged hjson rfl))
  | _ => exact .inl (hfaulty (.notObject rfl))

theorem decode_eq_error_iff (htree : tree.WellFormed) {error : Error} :
    decode tree = .error error ↔
      ∃ fault, HasFault tree fault ∧ error = .malformedEnvelope fault := by
  constructor
  · intro h
    rcases decode_cases htree with ⟨fault, hfault, hdecode⟩ | ⟨_, _, _, _, _, _, hdecode⟩
    · exact ⟨fault, hfault, Except.error.inj (h.symm.trans hdecode)⟩
    · cases h.symm.trans hdecode
  · rintro ⟨fault, hfault, rfl⟩
    exact decode_of_hasFault htree hfault

theorem exists_of_decode_eq_error {error : Error}
    (h : decode tree = .error error) : ∃ fault, error = .malformedEnvelope fault := by
  unfold decode at h
  split at h
  · exact ⟨_, (Except.error.inj h).symm⟩
  · split at h
    · exact ⟨_, (Except.error.inj h).symm⟩
    · exact ⟨_, (Except.error.inj h).symm⟩
    · split at h
      · exact ⟨_, (Except.error.inj h).symm⟩
      · simp at h

/-- What does not read as a message has a malformed envelope. -/
theorem exists_of_decodeBytes_eq_error {frame : ByteArray} {error : Error}
    (h : decodeBytes frame = .error error) : ∃ fault, error = .malformedEnvelope fault := by
  unfold decodeBytes at h
  split at h
  · exact ⟨_, (Except.error.inj h).symm⟩
  · exact exists_of_decode_eq_error h

theorem message_twoTags (first second : MessageKind) :
    (Error.malformedEnvelope (.twoTags first second)).message =
      "malformed envelope: ambiguous tags `" ++ first.tag ++ "` and `" ++ second.tag ++ "`" := by
  change "malformed envelope: " ++
    ("ambiguous tags `" ++ first.tag ++ "` and `" ++ second.tag ++ "`") = _
  simp only [← String.append_assoc, String.reduceAppend]

/-! ## Envelopes -/

theorem decode_isOk_iff : (∃ e, decode tree = .ok e) ↔ ∃ members kind body,
    tree = .object members ∧ SoleTag members kind ∧
      Members.get? kind.tag members = some (.object body) := by
  constructor
  · rintro ⟨e, he⟩
    obtain ⟨members, body, rfl, htags, hbody, -⟩ := exists_of_decode he
    exact ⟨members, e.kind, body, rfl, tags_eq_singleton_iff.1 htags, hbody⟩
  · rintro ⟨members, kind, body, rfl, hsole, hbody⟩
    exact ⟨_, decode_eq_ok kind (tags_eq_singleton_iff.2 hsole) hbody⟩

/-- Only an integer of thirty-two unsigned bits is an identifier, and it is this very number. -/
theorem readCorrelation_eq_some_iff {n : UInt32} : readCorrelation body = some n ↔
    ∃ low high, Members.get? "correlationID" body = some (.integer n.toNat low high) := by
  have hread := ofInt_readCorrelation body
  obtain ⟨low, high, hn⟩ := Json.ofInt_toNat n
  constructor
  · intro h
    rw [h, Option.map_some, hn] at hread
    exact ⟨low, high, (Option.filter_eq_some_iff.1 hread.symm).1⟩
  · rintro ⟨low, high, hget⟩
    have hidentifier : (Json.integer n.toNat low high).isIdentifier = true := by
      have hlt := n.toNat_lt
      exact decide_eq_true (by omega)
    rw [hget, Option.filter_some, if_pos hidentifier] at hread
    obtain ⟨m, hm, hsent⟩ := Option.map_eq_some_iff.1 hread
    obtain ⟨_, _, hm'⟩ := Json.ofInt_toNat m
    have hvalue : (m.toNat : Int) = n.toNat := by
      rw [hm'] at hsent
      exact Json.integer.inj hsent
    rw [hm, UInt32.toNat_inj.1 (Int.ofNat_inj.1 hvalue)]

/-- Of a tree, only the tag and three members of the body are read. -/
theorem decode_eq_of_same_parts {members' body' : Members Json} (hsole : SoleTag members kind)
    (hbody : Members.get? kind.tag members = some (.object body)) (hsole' : SoleTag members' kind)
    (hbody' : Members.get? kind.tag members' = some (.object body'))
    (hsame : ∀ key ∈ ["name", "correlationID", "parameters"],
      Members.get? key body' = Members.get? key body) :
    decode (.object members') = decode (.object members) := by
  have hname : readName body' = readName body := by
    unfold readName
    rw [hsame "name" (by simp)]
  have hcorrelation : readCorrelation body' = readCorrelation body := by
    unfold readCorrelation
    rw [hsame "correlationID" (by simp)]
  have hparams : readParams body' = readParams body := by
    unfold readParams
    rw [hsame "parameters" (by simp)]
  rw [decode_eq_ok kind (tags_eq_singleton_iff.2 hsole) hbody,
    decode_eq_ok kind (tags_eq_singleton_iff.2 hsole') hbody', hname, hcorrelation, hparams]

/-- A tree is decoded exactly if it is an object with one tag, null or not, and an object under
it. Any other tree has a malformed envelope, and of several tags the first two in the order of the
keys are named. The identifier is read exactly from an integer of thirty-two unsigned bits. Beside
the tag only the name, the identifier and the parameters count: with any other members around, and
any other body, the tree is decoded too, and it gives the same message if these three agree. -/
theorem decode_iff_soleTag (htree : tree.WellFormed) :
    ((∃ e, decode tree = .ok e) ↔ ∃ members kind body, tree = .object members ∧
      (∀ other : MessageKind, other.tag ∈ Members.keys members ↔ other = kind) ∧
      Members.get? kind.tag members = some (.object body)) ∧
    (∀ error, decode tree = .error error ↔
      ∃ fault, HasFault tree fault ∧ error = .malformedEnvelope fault) ∧
    (∀ members first second rest, tree = .object members →
      (Members.keys members).filterMap MessageKind.ofTag? = first :: second :: rest →
      ∃ error, decode tree = .error error ∧ error.code = .malformedEnvelope ∧
        error.message = "malformed envelope: ambiguous tags `" ++ first.tag ++ "` and `" ++
          second.tag ++ "`") ∧
    ∀ e, decode tree = .ok e → ∃ members body, tree = .object members ∧
      Members.get? e.kind.tag members = some (.object body) ∧
      (∀ n : UInt32, e.correlation = some n ↔
        ∃ low high, Members.get? "correlationID" body = some (.integer n.toNat low high)) ∧
      ∀ members' body' : Members Json,
        (∀ other : MessageKind, other.tag ∈ Members.keys members' ↔ other = e.kind) →
        Members.get? e.kind.tag members' = some (.object body') →
        (∃ other, decode (.object members') = .ok other ∧ other.kind = e.kind) ∧
        ((∀ key ∈ ["name", "correlationID", "parameters"],
          Members.get? key body' = Members.get? key body) → decode (.object members') = .ok e) := by
  refine ⟨decode_isOk_iff, fun _ => decode_eq_error_iff htree, ?_, fun e he => ?_⟩
  · rintro members first second rest rfl htagged
    exact ⟨_, decode_of_hasFault htree (.twoTags htagged), rfl, message_twoTags first second⟩
  · obtain ⟨members, body, rfl, htags, hbody, hread⟩ := exists_of_decode he
    refine ⟨members, body, rfl, hbody, fun n => ?_, fun members' body' hsole hbody' => ⟨?_, ?_⟩⟩
    · rw [hread]
      exact readCorrelation_eq_some_iff
    · exact ⟨_, decode_eq_ok e.kind (tags_eq_singleton_iff.2 hsole) hbody', rfl⟩
    · intro hsame
      rw [← he]
      exact decode_eq_of_same_parts (tags_eq_singleton_iff.1 htags) hbody hsole hbody' hsame

/-- A request is decoded although its name is a number, its identifier a float and its parameters
a list, and with other members beside it. Of three tags the first two are named, null or not. -/
theorem decode_iff_soleTag_request :
    let seven : Json := .float ⟨0x401c000000000000⟩ rfl
    let one : Json := .integer 1 (by decide) (by decide)
    let body : Members Json := [("correlationID", seven), ("name", one), ("parameters", .array [])]
    let plain : Json := .object [("request", .object body)]
    let crowded : Json := .object [("audit", .null), ("request", .object (("a", .null) :: body))]
    let ambiguous : Json := .object [("notification", .null), ("request", one), ("response", one)]
    plain.WellFormed ∧ ambiguous.WellFormed ∧
      (∃ e, decode plain = .ok e ∧ e.correlation ≠ some 7 ∧ decode crowded = .ok e) ∧
      ∃ error, decode ambiguous = .error error ∧ error.code = .malformedEnvelope ∧
        error.message = "malformed envelope: ambiguous tags `notification` and `request`" := by
  intro seven one body plain crowded ambiguous
  have hkeys : ["correlationID", "name", "parameters"].Pairwise (· < ·) := by decide
  have hbody : (Json.object body).WellFormed := ⟨hkeys, trivial, trivial, trivial, trivial⟩
  have hplain : plain.WellFormed := ⟨List.pairwise_singleton .., hbody, trivial⟩
  have htags : ["notification", "request", "response"].Pairwise (· < ·) := by decide
  have hambiguous : ambiguous.WellFormed := ⟨htags, trivial, trivial, trivial, trivial⟩
  have he : decode plain = .ok ⟨.request, "", none, .empty⟩ := rfl
  obtain ⟨-, -, -, hread⟩ := decode_iff_soleTag hplain
  obtain ⟨-, -, hfirst, -⟩ := decode_iff_soleTag hambiguous
  obtain ⟨members, inner, hmembers, hget, hcorrelation, hother⟩ := hread _ he
  obtain rfl := Json.object.inj hmembers
  obtain rfl := Json.object.inj (Option.some.inj hget)
  refine ⟨hplain, hambiguous, ⟨_, he, fun h => ?_, ?_⟩, hfirst _ .notification .request _ rfl rfl⟩
  · obtain ⟨_, _, hinteger⟩ := (hcorrelation 7).1 h
    have hseven : Members.get? "correlationID" body = some seven := rfl
    exact Json.noConfusion (Option.some.inj (hseven.symm.trans hinteger))
  · refine (hother _ _ (fun other => ?_) rfl).2 ?_
    · cases other <;> simp [Members.keys, MessageKind.tag]
    · simp [body]

end HeadUnit.Envelope
