import HeadUnit.Proofs.Catalog.Telemetry
import HeadUnit.Proofs.Container.Skew

/-!
# Telemetry between peers of different versions

A receiver that takes the parameters of a telemetry message for those of its own version misses
what was renamed in between, and nothing else: the key of the fuel level state and the name of one
state of the wipers, which both changed with version 5.

## Main statements

* `key_eq_iff`, `wireName_wiperStatus_eq_iff` — the keys and names that differ between versions.
* `OnVehicleData.get_ofParams_toParams_assignAll` — what the receiver reads.
-/

namespace HeadUnit.Catalog

open Container

/-- One wipe on its own; its name got an underscore in version 5. -/
def courtesyWipe : wiperStatus.Word := ⟨11, by decide⟩

theorem apart_vehicleData : vehicleData.Apart := by
  decide +kernel

theorem apart_types : ∀ e ∈ vehicleData.entries, e.type.Apart := by
  decide +kernel

variable {e : Entry}

/-- Only the fuel level state has another key since version 5. -/
theorem key_eq_iff (v w : Version) (he : e ∈ vehicleData.entries) :
    e.key v = e.key w ↔ e.id ≠ VehicleData.fuelLevelState.id ∨ (v = .v5 ↔ w = .v5) := by
  have hkeys : ∀ v w, ∀ e ∈ vehicleData.entries,
      e.key v = e.key w ↔ e.id ≠ VehicleData.fuelLevelState.id ∨ (v = .v5 ↔ w = .v5) := by
    decide +kernel
  exact hkeys v w e he

/-- Only the courtesy wipe has another name since version 5. -/
theorem wireName_wiperStatus_eq_iff (v w : Version) (word : wiperStatus.Word) :
    wiperStatus.wireName v word = wiperStatus.wireName w word ↔
      word ≠ courtesyWipe ∨ (v = .v5 ↔ w = .v5) := by
  have hnames : ∀ v w, ∀ word : Fin wiperStatus.words.length,
      wiperStatus.wireName v word = wiperStatus.wireName w word ↔
        word ≠ courtesyWipe ∨ (v = .v5 ↔ w = .v5) := by
    decide +kernel
  exact hnames v w word

theorem isSteady_of_ne (he : e ∈ vehicleData.entries) (hne : e.id ≠ VehicleData.wiperStatus.id) :
    e.type.isSteady = true := by
  have hsteady : ∀ e ∈ vehicleData.entries,
      e.id ≠ VehicleData.wiperStatus.id → e.type.isSteady = true := by
    decide +kernel
  exact hsteady e he hne

theorem encode_wiperStatus_ne_iff (v w : Version) {read : Option wiperStatus.Word}
    {word : wiperStatus.Word} (hread : read = some word) :
    (WireType.word wiperStatus).encode v word ≠ (WireType.word wiperStatus).encode w word ↔
      ¬(v = .v5 ↔ w = .v5) ∧ read = some courtesyWipe := by
  have hname := wireName_wiperStatus_eq_iff v w word
  rw [hread, Option.some_inj, WireType.encode, WireType.encode, Ne, Value.text.injEq, hname]
  tauto

/-- What is lost of a datum between two versions: only the fuel level state and the courtesy wipe
have another key or another value since version 5. -/
theorem key_ne_or_encode_ne_iff (v w : Version) (he : e ∈ vehicleData.entries)
    {c : Container vehicleData} {x : e.type.Carrier} (hx : c.get e.field = some x) :
    (e.key v ≠ e.key w ∨ e.type.encode v x ≠ e.type.encode w x) ↔
      ¬(v = .v5 ↔ w = .v5) ∧ (e = VehicleData.fuelLevelState.entry ∨
        e = VehicleData.wiperStatus.entry ∧
          c.get VehicleData.wiperStatus = some courtesyWipe) := by
  have hfuel : VehicleData.fuelLevelState.entry ∈ vehicleData.entries := by simp [vehicleData]
  have hwiper : VehicleData.wiperStatus.entry ∈ vehicleData.entries := by simp [vehicleData]
  by_cases hid : e.id = VehicleData.wiperStatus.id
  · obtain rfl := valid_vehicleData.eq_of_id_eq he hwiper hid
    have hkey : VehicleData.wiperStatus.entry.key v = VehicleData.wiperStatus.entry.key w :=
      (key_eq_iff v w he).2 (.inl (by decide))
    have hother : VehicleData.wiperStatus.entry ≠ VehicleData.fuelLevelState.entry := fun h =>
      absurd (congrArg (fun e : Entry => e.id) h) (by decide)
    simp only [ne_eq, hkey, not_true_eq_false, false_or, hother, true_and]
    exact encode_wiperStatus_ne_iff v w hx
  · have hvalue := e.type.encode_eq_of_isSteady v w x (isSteady_of_ne he hid)
    have hne : e ≠ VehicleData.wiperStatus.entry := fun h => hid (h ▸ rfl)
    have heq : e = VehicleData.fuelLevelState.entry ↔ e.id = VehicleData.fuelLevelState.id :=
      ⟨fun h => h ▸ rfl, valid_vehicleData.eq_of_id_eq he hfuel⟩
    rw [Ne, key_eq_iff v w he, heq]
    simp only [hvalue, hne]
    tauto

namespace OnVehicleData

variable {assignments : List (Assignment vehicleData)}

/-- A message is filled at `v`, and the parameters of it are viewed by a receiver at `w`. No
assignment is refused. Whatever the receiver reads of a field is what the sender reads, so a field
without a datum has none for the receiver either. A datum is lost exactly if one of the versions is
the fifth and the other is not, and it is the fuel level state or the courtesy wipe. -/
theorem get_ofParams_toParams_assignAll (v w : Version) (hfinite : ∀ a ∈ assignments, a.IsFinite) :
    ∃ m, (OnVehicleData.empty v).assignAll assignments = .ok m ∧
      let view : Container vehicleData := onVehicleData.ofParams w (onVehicleData.toParams v m)
      ∀ e ∈ vehicleData.entries,
        (view.get e.field = m.get e.field ∨ view.get e.field = none) ∧
        (m.get e.field = none → view.get e.field = none) ∧
        (m.get e.field ≠ none → (view.get e.field = none ↔
          ¬(v = .v5 ↔ w = .v5) ∧ (e = VehicleData.fuelLevelState.entry ∨
            e = VehicleData.wiperStatus.entry ∧
              m.get VehicleData.wiperStatus = some courtesyWipe))) := by
  refine ⟨_, assignAll_eq_ok valid_vehicleData _ assignments, ?_⟩
  have hfilled := (filled_empty valid_vehicleData v).foldl_assign valid_vehicleData
    lawful_vehicleData hfinite
  have hsent : onVehicleData.ofParams w (onVehicleData.toParams v
      (assignments.foldl assign (OnVehicleData.empty v))) =
        (assignments.foldl assign (Container.empty vehicleData v)).viewedAt w :=
    congrArg (Container.mk w) (toParams_foldl_assign v v hfinite)
  intro view e he
  obtain ⟨hkept, hlost⟩ := get_viewedAt_eq_or valid_vehicleData apart_vehicleData hfilled he
    (apart_types e he) (lawful_vehicleData e he) w
  rw [version_foldl_assign] at hlost
  simp only [view, hsent]
  refine ⟨?_, fun hnone => ?_, fun hsome => ?_⟩
  · cases hread : ((assignments.foldl assign (Container.empty vehicleData v)).viewedAt w).get
        e.field with
    | none => exact .inr rfl
    | some x => exact .inl (hkept x hread).symm
  · rw [Option.eq_none_iff_forall_ne_some]
    intro x hx
    exact absurd (hnone.symm.trans (hkept x hx)) (by simp)
  · obtain ⟨x, hx⟩ := Option.ne_none_iff_exists'.1 hsome
    exact (hlost x hx).trans (key_ne_or_encode_ne_iff v w he hx)

/-- A courtesy wipe is lost between the fourth version and the fifth, the speed is not. -/
theorem get_ofParams_toParams_assignAll_courtesyWipe :
    let assignments : List (Assignment vehicleData) := [
      ⟨VehicleData.wiperStatus.entry, by simp [vehicleData], some courtesyWipe⟩,
      ⟨VehicleData.speed.entry, by simp [vehicleData], some .zero⟩]
    (∀ a ∈ assignments, a.IsFinite) ∧
      ∃ m, (OnVehicleData.empty .v4).assignAll assignments = .ok m ∧
        let view : Container vehicleData :=
          onVehicleData.ofParams .v5 (onVehicleData.toParams .v4 m)
        m.get VehicleData.wiperStatus = some courtesyWipe ∧
          view.get VehicleData.wiperStatus = none ∧
          view.get VehicleData.speed = some .zero := by
  intro assignments
  have hwiper : VehicleData.wiperStatus.entry ∈ vehicleData.entries := by simp [vehicleData]
  have hspeed : VehicleData.speed.entry ∈ vehicleData.entries := by simp [vehicleData]
  have hfinite : ∀ a ∈ assignments, a.IsFinite := by
    simp only [assignments, List.forall_mem_cons]
    refine ⟨fun _ _ => trivial, ?_, List.forall_mem_nil _⟩
    rintro _ ⟨⟩
    exact (by decide : Binary64.zero.isFinite = true)
  obtain ⟨m, hassign, hview⟩ := get_ofParams_toParams_assignAll .v4 .v5 hfinite
  obtain rfl := Except.ok.inj ((assignAll_eq_ok valid_vehicleData _ assignments).symm.trans hassign)
  have hwiped : (assignments.foldl assign (OnVehicleData.empty .v4)).get
      VehicleData.wiperStatus = some courtesyWipe := by
    decide +kernel
  have hstill : (assignments.foldl assign (OnVehicleData.empty .v4)).get
      VehicleData.speed = some .zero := by
    decide +kernel
  obtain ⟨-, -, hlost⟩ := hview _ hwiper
  obtain ⟨hkept, -, hspeed⟩ := hview _ hspeed
  refine ⟨hfinite, _, hassign, hwiped, ?_, ?_⟩
  · exact (hlost fun h => Option.some_ne_none _ (hwiped.symm.trans h)).2
      ⟨by decide, .inr ⟨rfl, hwiped⟩⟩
  · have hne := (hspeed fun h => Option.some_ne_none _ (hstill.symm.trans h)).not.2 <| by
      rintro ⟨-, h | ⟨h, -⟩⟩ <;> exact absurd (congrArg (fun e : Entry => e.id) h) (by decide)
    exact (hkept.resolve_right hne).trans hstill

end OnVehicleData

end HeadUnit.Catalog
