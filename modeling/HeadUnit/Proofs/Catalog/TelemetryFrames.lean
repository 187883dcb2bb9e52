import HeadUnit.Proofs.Catalog.Telemetry
import HeadUnit.Proofs.Envelope.Bytes

/-!
# Telemetry through frames

A telemetry message with one double passes as a frame. The receiver reads the double that its digits
are read as, which need not be the one that was assigned: the reader rounds a significand and a
power of ten before it rounds their product or quotient.

## Main statements

* `OnVehicleData.get_ofEnvelope?_decodeBytes` — any telemetry field of doubles.
* `OnVehicleData.get_speed_decodeBytes` — the speed, and how far off it is read.
* `OnVehicleData.not_forall_get_speed_decodeBytes` — a speed that is read as another one.
-/

namespace HeadUnit.Catalog.OnVehicleData

open Container

variable {x : Binary64}

theorem key_ne_embeddingKey (v : Version) :
    ∀ e ∈ vehicleData.entries, e.key v ≠ Json.embeddingKey := by
  revert v
  decide +kernel

theorem put_nil_float (key : String) (hfinite : x.isFinite = true) :
    Value.put key (.float x) [] = [(key, .float x)] := by
  rw [Value.put, Value.isAbsent, hfinite]
  rfl

/-- The frame of an envelope whose only parameter is a double. -/
theorem decodeBytes_encodeBytes_float (e : Envelope) {key : String} (hkey : key ≠ Json.embeddingKey)
    (hfinite : x.isFinite = true) (hparams : e.params = ⟨[(key, .float x)]⟩) :
    Envelope.decodeBytes e.encodeBytes =
      .ok ⟨e.kind, e.name, e.sentCorrelation, ⟨[(key, .float x.reread)]⟩⟩ := by
  have hy := (Binary64.resembles_reread hfinite).isFinite
  have hwell : e.params.WellFormed := by
    rw [hparams]
    exact ⟨List.pairwise_singleton .., ⟨by simp [Value.isAbsent, hfinite], trivial⟩, trivial⟩
  have htree : e.params.toJson = .object [(key, .float x hfinite)] := by
    have hfloat : (Value.float x).toJson = .float x hfinite := dif_pos hfinite
    rw [hparams, Params.toJson, Value.toJsonMembers, hfloat]
    rfl
  have hread : e.params.toJson.reread.unembed? = some (.object [(key, .float x.reread hy)]) := by
    rw [htree]
    exact Json.unembed?_eq_some _ ⟨beq_false_of_ne hkey, trivial, trivial⟩
  have hnesting : e.encode.nesting ≤ 127 := by
    rw [Envelope.nesting_encode, htree]
    exact (by decide : 3 ≤ 127)
  rw [Envelope.decodeBytes_encodeBytes_reread hwell, if_pos hnesting, hread]
  exact congrArg (fun members => Except.ok (Envelope.mk e.kind e.name e.sentCorrelation ⟨members⟩))
    (put_nil_float key hy)

/-- A telemetry field of doubles is assigned at `v`, sent and received at `w`. -/
theorem get_ofEnvelope?_decodeBytes (f : Field .float) (hf : f.entry ∈ vehicleData.entries)
    (v w : Version) (hfinite : x.isFinite = true) :
    ∃ (m received : Container vehicleData) (e : Envelope),
      (OnVehicleData.empty v).set f (some x) = .ok m ∧
      Envelope.decodeBytes (onVehicleData.toEnvelope w none m).encodeBytes = .ok e ∧
      onVehicleData.ofEnvelope? w e = some received ∧ received.get f = some x.reread := by
  let a : Assignment vehicleData := ⟨f.entry, hf, some x⟩
  have ha : a.IsFinite := by
    rintro _ ⟨⟩
    exact hfinite
  have hset := set_eq_ok_assign valid_vehicleData (OnVehicleData.empty v) a
  have hsent := toParams_foldl_assign v w (List.forall_mem_singleton.2 ha)
  have hparams : onVehicleData.toParams w ((OnVehicleData.empty v).assign a) =
      ⟨[(f.entry.key w, .float x)]⟩ := by
    have hvalue : Value.ofFloat x = .float x := if_pos hfinite
    refine hsent.trans ?_
    rw [List.foldl_cons, List.foldl_nil, assign, attempt_of_registered valid_vehicleData hf rfl rfl]
    change Params.mk (Value.put (f.entry.key w) (.ofFloat x) []) = _
    rw [hvalue, put_nil_float _ hfinite]
  have hframe := decodeBytes_encodeBytes_float (onVehicleData.toEnvelope w none
    ((OnVehicleData.empty v).assign a)) (key_ne_embeddingKey w _ hf) hfinite hparams
  refine ⟨_, ⟨w, ⟨[(f.entry.key w, .float x.reread)]⟩⟩, _, hset, hframe, ?_, ?_⟩
  · rw [MessageType.ofEnvelope?, if_pos (Eq.trans (MessageType.accepts_eq rfl rfl) (by simp))]
    rfl
  · refine (get_of_registered valid_vehicleData hf rfl rfl).trans ?_
    rw [Params.read, Params.get?, Members.get?_cons, if_pos rfl]
    rfl

/-- The speed is assigned, sent and received at one version. The message arrives, and the speed that
the receiver reads is what the digits are read as: a finite double with the same sign, at most five
units in the last place away, and the very double if it has a brief decimal. It is the same double
exactly if the digits are read back. -/
theorem get_speed_decodeBytes (v : Version) (x : Binary64) (hfinite : x.isFinite = true) :
    ∃ (m received : Container vehicleData) (e : Envelope) (y : Binary64),
      (OnVehicleData.empty v).set VehicleData.speed (some x) = .ok m ∧
      Envelope.decodeBytes (onVehicleData.toEnvelope v none m).encodeBytes = .ok e ∧
      onVehicleData.ofEnvelope? v e = some received ∧
      received.get VehicleData.speed = some y ∧
      x.Resembles y ∧ (y = x ↔ x.ReadsBack) := by
  obtain ⟨m, received, e, hset, hdecode, hreceived, hget⟩ :=
    get_ofEnvelope?_decodeBytes VehicleData.speed (by simp [vehicleData]) v v hfinite
  exact ⟨m, received, e, x.reread, hset, hdecode, hreceived, hget,
    Binary64.resembles_reread hfinite, Binary64.reread_eq_self_iff hfinite⟩

/-- A speed of minus one tenth, which is no binary fraction, arrives as it was assigned. -/
theorem get_speed_decodeBytes_minusOneTenth :
    let x : Binary64 := ⟨0xbfb999999999999a⟩
    x.isFinite = true ∧
    ∃ (m received : Container vehicleData) (e : Envelope),
      (OnVehicleData.empty .v3).set VehicleData.speed (some x) = .ok m ∧
      Envelope.decodeBytes (onVehicleData.toEnvelope .v3 none m).encodeBytes = .ok e ∧
      onVehicleData.ofEnvelope? .v3 e = some received ∧
      received.get VehicleData.speed = some x := by
  intro x
  have hfinite : x.isFinite = true := by decide
  have hbrief : x.shortest.IsBrief := by decide +kernel
  obtain ⟨m, received, e, y, hset, hdecode, hreceived, hget, hresembles, -⟩ :=
    get_speed_decodeBytes .v3 x hfinite
  exact ⟨hfinite, m, received, e, hset, hdecode, hreceived, hresembles.eq_of_isBrief hbrief ▸ hget⟩

/-- The speed `1.6666666666666665` is read as the double below it: the significand has more than
fifty-three bits and is rounded, and so is the quotient. -/
theorem not_forall_get_speed_decodeBytes : ¬ ∀ (v : Version) (x : Binary64), x.isFinite = true →
    ∃ (m received : Container vehicleData) (e : Envelope),
      (OnVehicleData.empty v).set VehicleData.speed (some x) = .ok m ∧
      Envelope.decodeBytes (onVehicleData.toEnvelope v none m).encodeBytes = .ok e ∧
      onVehicleData.ofEnvelope? v e = some received ∧
      received.get VehicleData.speed = some x := by
  intro hall
  have hread : (⟨0x3ffaaaaaaaaaaaaa⟩ : Binary64).reread = ⟨0x3ffaaaaaaaaaaaa9⟩ := by decide +kernel
  obtain ⟨m, received, e, hset, hdecode, hreceived, hget⟩ := hall .v5 ⟨0x3ffaaaaaaaaaaaaa⟩ rfl
  obtain ⟨m', received', e', hset', hdecode', hreceived', hget'⟩ :=
    get_ofEnvelope?_decodeBytes VehicleData.speed (by simp [vehicleData]) .v5 .v5
      (x := ⟨0x3ffaaaaaaaaaaaaa⟩) rfl
  obtain rfl : m = m' := Except.ok.inj (hset.symm.trans hset')
  obtain rfl : e = e' := Except.ok.inj (hdecode.symm.trans hdecode')
  obtain rfl : received = received' := Option.some.inj (hreceived.symm.trans hreceived')
  rw [hget, hread] at hget'
  exact absurd hget' (by decide)

end HeadUnit.Catalog.OnVehicleData
