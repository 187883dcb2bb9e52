import HeadUnit.Proofs.Container.Writes

/-!
# Conversion between versions

What is under a key after conversion is the value of the field that has the key there, as read at
the old version and written at the new one; failing that, the old value under the key, if no field
had the key before. So a readable field keeps its datum. A field that could not be read reads as
something afterwards exactly if an unregistered key spells its name at the new version.

## Main definitions

* `Container.converted?`, `Container.carried?` — where the values of a conversion come from.

## Main statements

* `Container.get?_toVersion` — the values stored after a conversion.
* `Container.get_toVersion` — what a field reads as after a conversion.
* `Container.get_toVersion_ne_iff` — when a conversion changes what a field reads as.
-/

namespace HeadUnit

variable {r : Registry} {w : Version} {e : Entry}

namespace Container

variable {c : Container r}

/-- The value that conversion to `w` writes under `key`, for the field that has the key there. -/
def converted? (c : Container r) (w : Version) (key : String) : Option Value := do
  let e ← r.entryForKey? key w
  let raw ← c.params.get? (e.key c.version)
  e.transcode raw c.version w

/-- The stored value under `key`, if no field has the key. -/
def carried? (c : Container r) (key : String) : Option Value :=
  if c.isRegistered key then none else c.params.get? key

theorem isRegistered_eq_false_iff (key : String) :
    c.isRegistered key = false ↔ ∀ e ∈ r.entries, e.key c.version ≠ key := by
  rw [isRegistered, Option.isSome_eq_false_iff, Option.isNone_iff_eq_none,
    Registry.entryForKey?_eq_none_iff]

theorem converted?_key (hr : r.Valid) (he : e ∈ r.entries) : c.converted? w (e.key w) =
    (c.params.get? (e.key c.version)).bind fun raw => e.transcode raw c.version w := by
  rw [converted?, hr.entryForKey?_eq_some_iff.2 ⟨he, rfl⟩]
  rfl

/-! ## The registered fields -/

theorem get?_convertMember (hr : r.Valid) (he : e ∈ r.entries) (p : Params) (key : String)
    {raw : Value} (hraw : raw.isAbsent = false) :
    (c.convertMember w p (key, raw)).get? (e.key w) =
      if e.key c.version = key then (e.transcode raw c.version w).or (p.get? (e.key w))
      else p.get? (e.key w) := by
  unfold convertMember
  cases hfind : r.entryForKey? key c.version with
  | none => rw [if_neg ((Registry.entryForKey?_eq_none_iff _ _).1 hfind e he)]
  | some d =>
    obtain ⟨hd, rfl⟩ := hr.entryForKey?_eq_some_iff.1 hfind
    by_cases hkey : e.key c.version = d.key c.version
    · obtain rfl := hr.eq_of_key_eq he hd hkey
      dsimp only
      cases htranscode : e.transcode raw c.version w with
      | none => simp
      | some value =>
        have hvalue := WireType.isAbsent_transcode hraw htranscode
        simp [Params.get?_set, hvalue]
    · have hne : d.key w ≠ e.key w := fun h => hkey (hr.eq_of_key_eq hd he h ▸ rfl)
      rw [if_neg hkey]
      dsimp only
      split
      case h_1 => rw [Params.get?_set, if_neg hne]
      case h_2 => rfl

theorem get?_convertMember_of_unregistered (p : Params) (m : String × Value) {key : String}
    (h : r.entryForKey? key w = none) : (c.convertMember w p m).get? key = p.get? key := by
  unfold convertMember
  cases hfind : r.entryForKey? m.1 c.version with
  | none => rfl
  | some d =>
    have hd : d ∈ r.entries := List.mem_of_find?_eq_some hfind
    have hne := (Registry.entryForKey?_eq_none_iff _ _).1 h d hd
    dsimp only
    split
    case h_1 => rw [Params.get?_set, if_neg hne]
    case h_2 => rfl

/-- The value of a field is converted where it comes among the members; the others leave the
field's place alone. -/
theorem get?_foldl_convertMember (hr : r.Valid) (he : e ∈ r.entries) {ms : Members Value}
    (hms : (Members.keys ms).Nodup) (hstored : ∀ m ∈ ms, m.2.isAbsent = false) (p : Params) :
    (ms.foldl (c.convertMember w) p).get? (e.key w) =
      ((Members.get? (e.key c.version) ms).bind fun raw => e.transcode raw c.version w).or
        (p.get? (e.key w)) := by
  induction ms generalizing p with
  | nil => rfl
  | cons m rest ih =>
    obtain ⟨key, raw⟩ := m
    obtain ⟨hnot, hrest⟩ := List.nodup_cons.1 hms
    obtain ⟨hraw, hstored⟩ := List.forall_mem_cons.1 hstored
    rw [List.foldl_cons, ih hrest hstored, get?_convertMember hr he p key hraw,
      Members.get?_cons]
    by_cases hkey : e.key c.version = key
    -- The key does not come again, so nothing replaces what is converted here.
    · have hnone : Members.get? key rest = none := (Members.get?_eq_none_iff _ _).2 hnot
      simp [hkey, hnone]
    · rw [if_neg hkey, if_neg (Ne.symm hkey)]

theorem get?_foldl_convertMember_of_unregistered (ms : Members Value) (p : Params)
    {key : String} (h : r.entryForKey? key w = none) :
    (ms.foldl (c.convertMember w) p).get? key = p.get? key := by
  induction ms generalizing p with
  | nil => rfl
  | cons m rest ih => exact (ih _).trans (get?_convertMember_of_unregistered p m h)

/-! ## The other members -/

theorem get?_carryMember (p : Params) (m : String × Value) (hm : m.2.isAbsent = false)
    (key : String) :
    (carryMember p m).get? key = (p.get? key).or (if m.1 = key then some m.2 else none) := by
  unfold carryMember Params.contains
  by_cases hkey : m.1 = key
  · subst hkey
    cases hp : p.get? m.1 with
    | none => simp [Params.get?_set, hm]
    | some value => simp [hp]
  · split <;> simp [Params.get?_set, hkey]

theorem get?_foldl_carryMember (ms : Members Value) (hstored : ∀ m ∈ ms, m.2.isAbsent = false)
    (p : Params) (key : String) :
    (ms.foldl carryMember p).get? key = (p.get? key).or (Members.get? key ms) := by
  induction ms generalizing p with
  | nil => simp
  | cons m rest ih =>
    obtain ⟨hm, hrest⟩ := List.forall_mem_cons.1 hstored
    rw [List.foldl_cons, ih hrest, get?_carryMember p m hm, Option.or_assoc, Members.get?_cons]
    split <;> rfl

/-! ## The whole conversion -/

@[simp] theorem version_toVersion (c : Container r) (w : Version) :
    (c.toVersion w).version = w := rfl

/-- What is stored after a conversion: the values of the registered fields, then the others. The
members may be stored in any order. -/
theorem get?_toVersion_of_nodup (hr : r.Valid) (hkeys : c.params.keys.Nodup)
    (hstored : ∀ m ∈ c.params.members, m.2.isAbsent = false) (w : Version) (key : String) :
    (c.toVersion w).params.get? key = (c.converted? w key).or (c.carried? key) := by
  have hcarried : Members.get? key (c.params.members.filter fun m => !c.isRegistered m.1) =
      c.carried? key := by
    rw [Members.get?_filter (fun key => !c.isRegistered key), carried?]
    cases c.isRegistered key <;> rfl
  have hconverted : (c.params.members.foldl (c.convertMember w) .empty).get? key =
      c.converted? w key := by
    cases hfind : r.entryForKey? key w with
    | none =>
      rw [get?_foldl_convertMember_of_unregistered _ _ hfind, converted?, hfind]
      rfl
    | some e =>
      obtain ⟨he, rfl⟩ := hr.entryForKey?_eq_some_iff.1 hfind
      rw [get?_foldl_convertMember hr he hkeys hstored, converted?_key hr he, Params.get?_empty,
        Option.or_none]
      rfl
  unfold toVersion
  rw [get?_foldl_carryMember _ fun m hm => hstored m (List.mem_of_mem_filter hm), hcarried,
    hconverted]

theorem get?_toVersion (hr : r.Valid) (hc : c.params.WellFormed) (w : Version) (key : String) :
    (c.toVersion w).params.get? key = (c.converted? w key).or (c.carried? key) :=
  get?_toVersion_of_nodup hr hc.1.nodup_keys
    (fun m hm => ((Value.wellFormedMembers_iff _).1 hc.2 m hm).1) w key

/-- A property of parameters holds after a conversion if it holds of no parameters and is kept by
storing the value of a datum and by storing a value that was stored before. -/
theorem toVersion_induction {motive : Params → Prop} (c : Container r) (w : Version)
    (empty : motive .empty)
    (encoded : ∀ p key (t : WireType) x, motive p → motive (p.set key (t.encode w x)))
    (stored : ∀ p, ∀ m ∈ c.params.members, motive p → motive (p.set m.1 m.2)) :
    motive (c.toVersion w).params := by
  refine List.foldlRecOn _ _ (List.foldlRecOn _ _ empty ?_) ?_
  · intro p hp m _
    unfold convertMember
    split
    case h_1 => exact hp
    case h_2 e _ =>
      split
      case h_1 value hvalue =>
        obtain ⟨x, -, rfl⟩ := Option.map_eq_some_iff.1 hvalue
        exact encoded p _ _ x hp
      case h_2 => exact hp
  · intro p hp m hm
    unfold carryMember
    split
    case isTrue => exact hp
    case isFalse => exact stored p m (List.mem_of_mem_filter hm) hp

/-- The result is in order even where the members are not. -/
theorem wellFormed_toVersion_of_mem (h : ∀ m ∈ c.params.members, m.2.WellFormed) (w : Version) :
    (c.toVersion w).params.WellFormed := by
  apply toVersion_induction c w Params.wellFormed_empty
  · intro p key t x hp
    exact hp.set key (t.wellFormed_encode w x)
  · intro p m hm hp
    exact hp.set m.1 (h m hm)

theorem wellFormed_toVersion (hc : c.params.WellFormed) (w : Version) :
    (c.toVersion w).params.WellFormed :=
  wellFormed_toVersion_of_mem (fun m hm => ((Value.wellFormedMembers_iff _).1 hc.2 m hm).2) w

theorem isFinite_toVersion (hc : c.params.IsFinite) (w : Version) :
    (c.toVersion w).params.IsFinite := by
  apply toVersion_induction c w Params.isFinite_empty
  · intro p key t x hp
    exact hp.set key (t.isFinite_encode w x)
  · intro p m hm hp
    exact hp.set m.1 ((Value.isFiniteMembers_iff _).1 hc m hm)

/-! ## Reading after a conversion -/

/-- A field reads as before. Where it read as nothing, it reads as what is carried over under its
new key. -/
theorem get_toVersion (hr : r.Valid) (hc : c.params.WellFormed) (hfinite : c.params.IsFinite)
    (he : e ∈ r.entries) (hlawful : e.type.LawfulAt w) : (c.toVersion w).get e.field =
      (c.get e.field).or ((c.carried? (e.key w)).bind (e.type.decode w)) := by
  rw [get_field hr he, get_field hr he, version_toVersion, Params.read, Params.read,
    get?_toVersion hr hc, converted?_key hr he]
  cases hraw : c.params.get? (e.key c.version) with
  | none => rfl
  | some raw =>
    rw [Option.bind_some, Option.bind_some, Entry.transcode, WireType.transcode]
    cases hdecode : e.type.decode c.version raw with
    | none => rfl
    | some x =>
      have hx := e.type.isFinite_decode c.version (hfinite.get? hraw) hdecode
      have hback := WireType.decode_encode_of_isFinite hlawful hx
      simp [hback]

theorem mem_unregisteredKeys_iff (key : String) :
    key ∈ c.unregisteredKeys ↔ c.carried? key ≠ none := by
  unfold unregisteredKeys carried?
  rw [List.mem_filter, Params.mem_keys_iff]
  cases c.isRegistered key <;> simp

/-- A conversion keeps the contents of decoded parameters, up to one case. A field that can be read
is neither lost nor changed; and a field reads as something else than before exactly if it read as
nothing and the key that it has at the new version was stored without being any field's key, with
a value of the field's form, which is then taken for the field. The types have to be lawful: words
need names of their own, and the members of a record keys of their own. -/
theorem get_toVersion_ne_iff (hr : r.validate = .ok ()) (hlawful : ∀ e ∈ r.entries, e.type.Lawful)
    (v w : Version) (json : Json) :
    let c : Container r := ⟨v, .ofJson json⟩
    ∀ e ∈ r.entries,
      (∀ x, c.get e.field = some x → (c.toVersion w).get e.field = some x) ∧
      ((c.toVersion w).get e.field ≠ c.get e.field ↔
        c.get e.field = none ∧ e.key w ∈ c.unregisteredKeys ∧
          c.params.read e.type (e.key w) w ≠ none) := by
  intro c e he
  have hvalid := (Registry.validate_eq_ok_iff r).1 hr
  have hget := get_toVersion (c := c) hvalid (Params.wellFormed_ofJson json)
    (Params.isFinite_ofJson json) he (hlawful e he w)
  constructor
  · intro x hx
    rw [hget, hx]
    rfl
  · rw [hget, mem_unregisteredKeys_iff, Params.read]
    cases c.get e.field with
    | some x => simp
    | none =>
      unfold carried?
      cases c.isRegistered (e.key w) with
      | true => simp
      | false => cases c.params.get? (e.key w) <;> simp

open Catalog in
/-- A fuel level state under its old key is not read at the fifth version, but is after a
conversion to the fourth. -/
theorem get_toVersion_ne_iff_vehicleData :
    let c : Container vehicleData := ⟨.v5, .ofJson (.object [("fuelLevel_State", .string "LOW")])⟩
    vehicleData.validate = .ok () ∧ (∀ e ∈ vehicleData.entries, e.type.Lawful) ∧
      VehicleData.fuelLevelState.entry ∈ vehicleData.entries ∧
      (c.toVersion .v4).get VehicleData.fuelLevelState ≠ c.get VehicleData.fuelLevelState := by
  intro c
  have hmem : VehicleData.fuelLevelState.entry ∈ vehicleData.entries := by simp [vehicleData]
  have h := get_toVersion_ne_iff validate_vehicleData lawful_vehicleData .v5 .v4
    (.object [("fuelLevel_State", .string "LOW")]) VehicleData.fuelLevelState.entry hmem
  refine ⟨validate_vehicleData, lawful_vehicleData, hmem, h.2.2 ⟨?_, ?_, ?_⟩⟩
  · rfl
  · decide +kernel
  · decide +kernel

open Catalog in
/-- So a conversion does not keep the contents in general. -/
theorem not_forall_get_toVersion_eq : ¬ ∀ (r : Registry), r.validate = .ok () →
    (∀ e ∈ r.entries, e.type.Lawful) → ∀ (v w : Version) (json : Json), ∀ e ∈ r.entries,
      ((⟨v, .ofJson json⟩ : Container r).toVersion w).get e.field =
        (⟨v, .ofJson json⟩ : Container r).get e.field := by
  intro h
  have hmem : VehicleData.fuelLevelState.entry ∈ vehicleData.entries := by simp [vehicleData]
  have heq := h vehicleData validate_vehicleData lawful_vehicleData .v5 .v4
    (.object [("fuelLevel_State", .string "LOW")]) VehicleData.fuelLevelState.entry hmem
  revert heq
  decide +kernel

end Container

end HeadUnit
