import HeadUnit.Proofs.Catalog.Tables
import HeadUnit.Proofs.Registry.Valid
import HeadUnit.Proofs.WireType.RoundTrip

/-!
# Containers as maps from identifiers

A container stores its values under wire keys, but is written and read by field identifiers. Over
a valid registry keys and identifiers correspond, so that a run of writes through any handles acts
like one on a map from identifiers to raw values: writes to one field do not show in another, and
a refused write does not show at all.

## Main definitions

* `Registry.Accepts` — the registry has the handle's identifier with the handle's kind.
* `Write`, `Container.attempt`, `Container.attemptAll` — a write through any handle, and what is
  left after trying writes one after another.

## Main statements

* `Container.set_isOk_iff` — which writes are accepted.
* `Container.getRaw_attempt_self`, `Container.getRaw_attempt_of_ne` — what one write does.
* `Container.attemptAll_last_wins` — a run of writes, seen through any handle.
-/

namespace HeadUnit

variable {r : Registry} {t : WireType}

/-- A field with the handle's identifier is registered with the handle's kind. -/
def Registry.Accepts (r : Registry) (f : Field t) : Prop :=
  ∃ e ∈ r.entries, e.id = f.id ∧ e.kind = t.kind

/-- A datum, or none, for a field, through a handle of any type. -/
structure Write where
  type : WireType
  field : Field type
  datum : Option type.Carrier

namespace Write

/-- The value that a write stores at `v`; nothing if it removes the field, or if its value is
null. -/
def stored? (w : Write) (v : Version) : Option Value :=
  (w.datum.map (w.type.encode v)).filter (!·.isNull)

theorem stored?_eq (w : Write) (v : Version) :
    w.stored? v = (w.datum.map (w.type.encode v)).filter (!·.isAbsent) := by
  unfold stored?
  cases w.datum with
  | none => rfl
  | some x => simp [Option.filter, WireType.isAbsent_encode_eq]

end Write

namespace Container

/-- The container after a write was tried: a refused write leaves it as it was. -/
def attempt (c : Container r) (w : Write) : Container r :=
  match c.set w.field w.datum with
  | .ok d => d
  | .error _ => c

/-- The container after writes were tried one after another. -/
def attemptAll (c : Container r) (writes : List Write) : Container r :=
  writes.foldl attempt c

/-! ## The outcome of a write -/

variable {c : Container r} {f : Field t} {datum : Option t.Carrier} {e : Entry}

theorem set_of_unregistered (h : ∀ e ∈ r.entries, e.id ≠ f.id) :
    c.set f datum = .error (.unknownField f.id) := by
  rw [set, (Registry.entry?_eq_none_iff f.id).2 h]

theorem set_of_registered (hr : r.Valid) (he : e ∈ r.entries) (hid : e.id = f.id) :
    c.set f datum =
      if e.kind = t.kind then
        .ok { c with params := c.params.write t (e.key c.version) datum c.version }
      else .error (.fieldTypeMismatch f.id e.kind.label t.kind.label) := by
  rw [set, hr.entry?_eq_some_iff.2 ⟨he, hid⟩]

theorem get_of_registered (hr : r.Valid) (he : e ∈ r.entries) (hid : e.id = f.id)
    (hkind : e.kind = t.kind) : c.get f = c.params.read t (e.key c.version) c.version := by
  rw [get, hr.entry?_eq_some_iff.2 ⟨he, hid⟩]
  exact if_pos hkind

theorem get_field (hr : r.Valid) (he : e ∈ r.entries) :
    c.get e.field = c.params.read e.type (e.key c.version) c.version :=
  get_of_registered hr he rfl rfl

theorem set_eq_unknownField_iff (hr : r.Valid) :
    c.set f datum = .error (.unknownField f.id) ↔ ∀ e ∈ r.entries, e.id ≠ f.id := by
  refine ⟨fun h e he hid => ?_, set_of_unregistered⟩
  rw [set_of_registered hr he hid] at h
  split at h <;> cases h

theorem set_eq_fieldTypeMismatch_iff (hr : r.Valid) (he : e ∈ r.entries) (hid : e.id = f.id) :
    c.set f datum = .error (.fieldTypeMismatch f.id e.kind.label t.kind.label) ↔
      e.kind ≠ t.kind := by
  rw [set_of_registered hr he hid]
  split
  case isTrue h => simp [h]
  case isFalse h => simp [h]

theorem set_isOk_iff (hr : r.Valid) : (∃ d, c.set f datum = .ok d) ↔ r.Accepts f := by
  constructor
  · rintro ⟨d, hd⟩
    by_cases h : ∀ e ∈ r.entries, e.id ≠ f.id
    · rw [set_of_unregistered h] at hd
      cases hd
    · simp only [not_forall, not_not] at h
      obtain ⟨e, he, hid⟩ := h
      rw [set_of_registered hr he hid] at hd
      split at hd
      case isTrue hkind => exact ⟨e, he, hid, hkind⟩
      case isFalse => cases hd
  · rintro ⟨e, he, hid, hkind⟩
    exact ⟨_, by rw [set_of_registered hr he hid, if_pos hkind]⟩

theorem get_eq_none (hr : r.Valid) (h : ¬ r.Accepts f) : c.get f = none := by
  unfold get
  cases hfind : r.entry? f.id with
  | none => rfl
  | some e =>
    obtain ⟨he, hid⟩ := hr.entry?_eq_some_iff.1 hfind
    exact if_neg fun hkind => h ⟨e, he, hid, hkind⟩

/-! ## One write -/

variable {w : Write}

theorem attempt_of_not_accepts (hr : r.Valid) (h : ¬ r.Accepts w.field) : c.attempt w = c := by
  unfold attempt
  cases hset : c.set w.field w.datum with
  | ok d => exact absurd ((set_isOk_iff hr).1 ⟨d, hset⟩) h
  | error _ => rfl

theorem attempt_of_registered (hr : r.Valid) (he : e ∈ r.entries) (hid : e.id = w.field.id)
    (hkind : e.kind = w.type.kind) : c.attempt w =
      { c with params := c.params.write w.type (e.key c.version) w.datum c.version } := by
  rw [attempt, set_of_registered hr he hid, if_pos hkind]

theorem version_of_set {d : Container r} (h : c.set f datum = .ok d) : d.version = c.version := by
  unfold set at h
  cases hfind : r.entry? f.id with
  | none =>
    rw [hfind] at h
    cases h
  | some e =>
    rw [hfind] at h
    dsimp only at h
    split at h <;> cases h
    rfl

@[simp] theorem version_attempt (c : Container r) (w : Write) :
    (c.attempt w).version = c.version := by
  unfold attempt
  split
  case h_1 hset => exact version_of_set hset
  case h_2 => rfl

theorem get?_attempt (hr : r.Valid) (he : e ∈ r.entries) (hid : e.id = w.field.id)
    (hkind : e.kind = w.type.kind) (key : String) : (c.attempt w).params.get? key =
      if e.key c.version = key then w.stored? c.version else c.params.get? key := by
  rw [attempt_of_registered hr he hid hkind, Params.get?_write, Write.stored?_eq]

theorem getRaw_of_registered (hr : r.Valid) (he : e ∈ r.entries) :
    c.getRaw e.id = c.params.get? (e.key c.version) := by
  rw [getRaw, Registry.resolveKey?, hr.entry?_eq_some_iff.2 ⟨he, rfl⟩]
  rfl

theorem get_eq_getRaw (hr : r.Valid) (h : r.Accepts f) :
    c.get f = (c.getRaw f.id).bind (t.decode c.version) := by
  obtain ⟨e, he, hid, hkind⟩ := h
  rw [get_of_registered hr he hid hkind, ← hid, getRaw_of_registered hr he]
  rfl

/-- An accepted write shows under its own identifier. -/
theorem getRaw_attempt_self (hr : r.Valid) (h : r.Accepts w.field) :
    (c.attempt w).getRaw w.field.id = w.stored? c.version := by
  obtain ⟨e, he, hid, hkind⟩ := h
  rw [← hid, getRaw_of_registered hr he, version_attempt, get?_attempt hr he hid hkind,
    if_pos rfl]

/-- Other fields keep what they have, since their keys differ at the container's version. -/
theorem getRaw_attempt_of_ne (hr : r.Valid) (he : e ∈ r.entries)
    (h : r.Accepts w.field → w.field.id ≠ e.id) : (c.attempt w).getRaw e.id = c.getRaw e.id := by
  by_cases haccepts : r.Accepts w.field
  · obtain ⟨d, hd, hid, hkind⟩ := haccepts
    have hkey : d.key c.version ≠ e.key c.version := fun hkey =>
      h ⟨d, hd, hid, hkind⟩ (hid ▸ congrArg (fun e => e.id) (hr.eq_of_key_eq hd he hkey))
    rw [getRaw_of_registered hr he, getRaw_of_registered hr he, version_attempt,
      get?_attempt hr hd hid hkind, if_neg hkey]
  · rw [attempt_of_not_accepts hr haccepts]

/-! ## Runs of writes -/

theorem attemptAll_append (c : Container r) (before after : List Write) :
    c.attemptAll (before ++ after) = (c.attemptAll before).attemptAll after :=
  List.foldl_append

@[simp] theorem version_attemptAll (c : Container r) (writes : List Write) :
    (c.attemptAll writes).version = c.version := by
  induction writes generalizing c with
  | nil => rfl
  | cons w rest ih => exact (ih (c.attempt w)).trans (version_attempt c w)

theorem getRaw_attemptAll_of_ne (hr : r.Valid) (he : e ∈ r.entries) (c : Container r)
    {writes : List Write} (h : ∀ w ∈ writes, r.Accepts w.field → w.field.id ≠ e.id) :
    (c.attemptAll writes).getRaw e.id = c.getRaw e.id := by
  induction writes generalizing c with
  | nil => rfl
  | cons w rest ih =>
    obtain ⟨hw, hrest⟩ := List.forall_mem_cons.1 h
    exact (ih (c.attempt w) hrest).trans (getRaw_attempt_of_ne hr he hw)

theorem getRaw_attemptAll_last (hr : r.Valid) (c : Container r) {before after : List Write}
    (hw : r.Accepts w.field)
    (hafter : ∀ u ∈ after, r.Accepts u.field → u.field.id ≠ w.field.id) :
    (c.attemptAll (before ++ w :: after)).getRaw w.field.id = w.stored? c.version := by
  obtain ⟨e, he, hid, -⟩ := id hw
  rw [← hid] at hafter
  rw [attemptAll_append]
  change (((c.attemptAll before).attempt w).attemptAll after).getRaw w.field.id = _
  rw [← hid, getRaw_attemptAll_of_ne hr he _ hafter, hid, getRaw_attempt_self hr hw,
    version_attemptAll]

theorem get?_attemptAll_of_ne (hr : r.Valid) (c : Container r) {writes : List Write}
    {key : String} (h : ∀ w ∈ writes, r.Accepts w.field →
      r.resolveKey? w.field.id c.version ≠ some key) :
    (c.attemptAll writes).params.get? key = c.params.get? key := by
  induction writes generalizing c with
  | nil => rfl
  | cons w rest ih =>
    obtain ⟨hw, hrest⟩ := List.forall_mem_cons.1 h
    have hstep : (c.attempt w).params.get? key = c.params.get? key := by
      by_cases haccepts : r.Accepts w.field
      · obtain ⟨e, he, hid, hkind⟩ := id haccepts
        have hkey : e.key c.version ≠ key := fun hkey => hw haccepts <| by
          rw [Registry.resolveKey?, hr.entry?_eq_some_iff.2 ⟨he, hid⟩]
          exact congrArg some hkey
        rw [get?_attempt hr he hid hkind, if_neg hkey]
      · rw [attempt_of_not_accepts hr haccepts]
    refine (ih (c.attempt w) ?_).trans hstep
    rwa [version_attempt]

/-- A run of writes through any handles acts on a map from identifiers to values. A write is
refused exactly if its identifier is unknown or registered with another kind, and then changes
nothing; a field reads as what the last accepted write on its identifier stored, whatever keys the
handle has; and all other keys stay as they were. -/
theorem attemptAll_last_wins (hr : r.validate = .ok ()) (c : Container r) (writes : List Write) :
    (∀ (d : Container r) (w : Write),
      (d.set w.field w.datum = .error (.unknownField w.field.id) ↔
        ∀ e ∈ r.entries, e.id ≠ w.field.id) ∧
      (∀ e ∈ r.entries, e.id = w.field.id →
        (d.set w.field w.datum =
          .error (.fieldTypeMismatch w.field.id e.kind.label w.type.kind.label) ↔
            e.kind ≠ w.type.kind)) ∧
      ((∃ d', d.set w.field w.datum = .ok d') ↔ r.Accepts w.field) ∧
      (¬ r.Accepts w.field → d.attempt w = d)) ∧
    (∀ {t : WireType} (f : Field t), r.Accepts f →
      (∀ before w after, writes = before ++ w :: after → r.Accepts w.field →
        w.field.id = f.id → (∀ u ∈ after, r.Accepts u.field → u.field.id ≠ f.id) →
        (c.attemptAll writes).get f = (w.stored? c.version).bind (t.decode c.version)) ∧
      ((∀ w ∈ writes, r.Accepts w.field → w.field.id ≠ f.id) →
        (c.attemptAll writes).get f = (c.getRaw f.id).bind (t.decode c.version))) ∧
    (∀ {t : WireType} (f : Field t), ¬ r.Accepts f → (c.attemptAll writes).get f = none) ∧
    (c.attemptAll writes).version = c.version ∧
    ∀ key, (∀ w ∈ writes, r.Accepts w.field →
        r.resolveKey? w.field.id c.version ≠ some key) →
      (c.attemptAll writes).params.get? key = c.params.get? key := by
  have hvalid := (Registry.validate_eq_ok_iff r).1 hr
  refine ⟨fun d w => ⟨set_eq_unknownField_iff hvalid, ?_, set_isOk_iff hvalid, ?_⟩,
    fun f hf => ⟨?_, ?_⟩, fun f hf => get_eq_none hvalid hf, version_attemptAll c writes,
    fun key => get?_attemptAll_of_ne hvalid c⟩
  · exact fun e he hid => set_eq_fieldTypeMismatch_iff hvalid he hid
  · exact attempt_of_not_accepts hvalid
  · rintro before w after rfl hw hid hafter
    rw [← hid] at hafter
    rw [get_eq_getRaw hvalid hf, version_attemptAll, ← hid,
      getRaw_attemptAll_last hvalid c hw hafter]
  · intro hne
    obtain ⟨e, he, hid, -⟩ := id hf
    rw [← hid] at hne
    rw [get_eq_getRaw hvalid hf, version_attemptAll, ← hid, getRaw_attemptAll_of_ne hvalid he c hne]

open Catalog in
/-- The fuel level state is written through a handle with keys of its own; the write of text to
the speed is refused, and the write of an unknown field too. -/
theorem attemptAll_last_wins_vehicleData :
    let writes : List Write := [
      ⟨.float, VehicleData.speed, some .zero⟩,
      ⟨.word componentVolumeStatus, .fixed _ "fuel_level_state" "other", some ⟨4, by decide⟩⟩,
      ⟨.text, .fixed _ "speed" "speed", some "fast"⟩,
      ⟨.float, .fixed _ "boost_pressure" "boostPressure", some .zero⟩]
    vehicleData.validate = .ok () ∧
      ((empty vehicleData .v5).attemptAll writes).get VehicleData.fuelLevelState =
        some ⟨4, by decide⟩ := by
  intro writes
  have hfield : vehicleData.Accepts VehicleData.fuelLevelState :=
    ⟨VehicleData.fuelLevelState.entry, by simp [vehicleData], rfl, rfl⟩
  have hafter : ∀ w ∈ writes.drop 2, vehicleData.Accepts w.field →
      w.field.id ≠ VehicleData.fuelLevelState.id := by
    simp [writes, Field.fixed, VehicleData.fuelLevelState]
  obtain ⟨-, hread, -⟩ :=
    attemptAll_last_wins validate_vehicleData (empty vehicleData .v5) writes
  refine ⟨validate_vehicleData, ?_⟩
  rw [(hread _ hfield).1 [_] _ _ rfl hfield rfl hafter]
  rfl

end Container

end HeadUnit
