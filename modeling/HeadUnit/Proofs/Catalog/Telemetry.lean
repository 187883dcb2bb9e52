import HeadUnit.Proofs.Container.Runs
import HeadUnit.Proofs.Message.RoundTrip

/-!
# Telemetry messages

A telemetry message is filled at one version and sent at another. What is sent is what a message
of the receiver's version would hold after the same assignments, so the receiver reads every field
as it was assigned last.

## Main statements

* `OnVehicleData.toParams_foldl_assign` — the parameters that are sent.
* `OnVehicleData.ofEnvelope?_decode_encode_assignAll` — a message from its first assignment to the
  receiver's reads.
-/

namespace HeadUnit.Catalog

open Container

theorem valid_vehicleData : vehicleData.Valid :=
  (Registry.validate_eq_ok_iff vehicleData).1 validate_vehicleData

namespace OnVehicleData

variable {assignments : List (Assignment vehicleData)}

/-- The assignments can be made at either end. -/
theorem toVersion_foldl_assign_empty (v w : Version) (hfinite : ∀ a ∈ assignments, a.IsFinite) :
    (assignments.foldl assign (Container.empty vehicleData v)).toVersion w =
      assignments.foldl assign (Container.empty vehicleData w) :=
  toVersion_foldl_assign valid_vehicleData lawful_vehicleData (settled_empty vehicleData v)
    hfinite w

/-- What is sent at `w` does not depend on the version at which the message was filled. -/
theorem toParams_foldl_assign (v w : Version) (hfinite : ∀ a ∈ assignments, a.IsFinite) :
    onVehicleData.toParams w (assignments.foldl assign (OnVehicleData.empty v)) =
      (assignments.foldl assign (Container.empty vehicleData w)).params :=
  congrArg params (toVersion_foldl_assign_empty v w hfinite)

/-- A message is filled at `v`, sent and received at `w`. No assignment is refused and the message
arrives; the receiver reads each field as the last assignment left it, fields that nothing was
assigned to as nothing, and holds no members beyond the fields that it reads. -/
theorem ofEnvelope?_decode_encode_assignAll (v w : Version) (correlation : Option UInt32)
    (hfinite : ∀ a ∈ assignments, a.IsFinite) :
    ∃ (m received : Container vehicleData) (e : Envelope),
      (OnVehicleData.empty v).assignAll assignments = .ok m ∧
      Envelope.decode (onVehicleData.toEnvelope w correlation m).encode = .ok e ∧
      onVehicleData.ofEnvelope? w e = some received ∧
      (∀ before a after, assignments = before ++ a :: after →
        (∀ b ∈ after, b.entry.id ≠ a.entry.id) → received.get a.entry.field = a.datum) ∧
      (∀ entry ∈ vehicleData.entries, (∀ a ∈ assignments, a.entry.id ≠ entry.id) →
        received.get entry.field = none) ∧
      ∀ key ∈ received.params.keys, ∃ entry ∈ vehicleData.entries,
        received.get entry.field ≠ none ∧ key = entry.key w := by
  have hsent := toParams_foldl_assign v w hfinite
  have hsettled := (settled_empty vehicleData w).foldl_assign valid_vehicleData hfinite
  obtain ⟨e, hdecode, hreceived⟩ := onVehicleData.ofEnvelope?_decode_encode w correlation
    (assignments.foldl assign (OnVehicleData.empty v)) (hsent ▸ hsettled.wellFormed)
    (hsent ▸ hsettled.isFinite)
  have hmessage : onVehicleData.ofParams w (onVehicleData.toParams w
      (assignments.foldl assign (OnVehicleData.empty v))) =
        assignments.foldl assign (Container.empty vehicleData w) := by
    have hversion : (assignments.foldl assign (Container.empty vehicleData w)).version = w :=
      version_foldl_assign _ assignments
    rw [hsent]
    exact congrArg (Container.mk · _) hversion.symm
  -- From here on the receiver's message is one that was filled at `w` itself.
  rw [hmessage] at hreceived
  refine ⟨_, _, e, assignAll_eq_ok valid_vehicleData _ assignments, hdecode, hreceived, ?_, ?_, ?_⟩
  · rintro before a after rfl hafter
    have ha : a.IsFinite := hfinite a (by simp)
    exact get_foldl_assign_last valid_vehicleData _ ha
      (lawful_vehicleData a.entry a.registered w) hafter
  · intro entry hentry hne
    rw [get_foldl_assign_of_ne valid_vehicleData hentry _ hne, get_field valid_vehicleData hentry]
    rfl
  · have hreadable := (Readable.empty vehicleData w).foldl_assign valid_vehicleData
      lawful_vehicleData hfinite
    intro key hkey
    obtain ⟨entry, hentry, hget, hown⟩ := hreadable key hkey
    rw [version_foldl_assign] at hown
    exact ⟨entry, hentry, hget, hown⟩

/-- A fuel level state that replaces another, with the old key at the sender and the new one at
the receiver. -/
theorem ofEnvelope?_decode_encode_assignAll_fuelLevelState :
    let state (word : componentVolumeStatus.Word) : Assignment vehicleData :=
      ⟨VehicleData.fuelLevelState.entry, by simp [vehicleData], some word⟩
    let assignments : List (Assignment vehicleData) := [state ⟨3, by decide⟩, state ⟨4, by decide⟩]
    (∀ a ∈ assignments, a.IsFinite) ∧
    ∃ (m received : Container vehicleData) (e : Envelope),
      (OnVehicleData.empty .v3).assignAll assignments = .ok m ∧
      Envelope.decode (onVehicleData.toEnvelope .v5 (some 7) m).encode = .ok e ∧
      onVehicleData.ofEnvelope? .v5 e = some received ∧
      received.get VehicleData.fuelLevelState = some ⟨4, by decide⟩ := by
  intro state assignments
  have hfinite : ∀ a ∈ assignments, a.IsFinite := by
    simp [assignments, state, Assignment.IsFinite, WireType.IsFinite, VehicleData.fuelLevelState,
      Field.entry]
  obtain ⟨m, received, e, hassign, hdecode, hreceived, hlast, -⟩ :=
    ofEnvelope?_decode_encode_assignAll .v3 .v5 (some 7) hfinite
  refine ⟨hfinite, m, received, e, hassign, hdecode, hreceived, ?_⟩
  exact hlast [state ⟨3, by decide⟩] (state ⟨4, by decide⟩) [] rfl (by simp)

end OnVehicleData

end HeadUnit.Catalog
