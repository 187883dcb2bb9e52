import HeadUnit.Proofs.Container.Conversion
import HeadUnit.Proofs.Params.Built
import HeadUnit.Proofs.WireType.Canonical

/-!
# What the registry reads of a write

A write is accepted if the handle has the registered kind. The registry then resolves what was
written with the registered type, which may be another type of this kind. The written value
resolves exactly if the registered type writes it too, and then conversions keep it. Of integers
written at another width those are resolved that fit.

## Main statements

* `Container.resolve_of_set` — what an accepted write resolves to.
* `Container.getRaw_toVersion` — what a conversion leaves of a field.
* `Container.resolve_set_eq_some_iff` — when what was written resolves.
* `Container.not_forall_resolve_set_eq_some` — an accepted write need not resolve.
-/

namespace HeadUnit

namespace Container

variable {r : Registry} {t : WireType} {c d : Container r} {f : Field t} {x : t.Carrier} {e : Entry}

theorem resolve_of_registered (hr : r.Valid) (he : e ∈ r.entries) :
    c.resolve e.id = (c.getRaw e.id).bind (e.type.transcode c.version c.version) := by
  rw [getRaw_of_registered hr he, resolve, hr.entry?_eq_some_iff.2 ⟨he, rfl⟩]
  rfl

theorem mem_resolved (he : e ∈ r.entries) {value : Value} (h : c.resolve e.id = some value) :
    (e.id, value) ∈ c.resolved :=
  List.mem_filterMap.2 ⟨e, he, by rw [h]; rfl⟩

/-! ## Accepted writes -/

/-- What an accepted write does to the container. -/
theorem eq_of_set (hr : r.Valid) (he : e ∈ r.entries) (hid : e.id = f.id)
    {datum : Option t.Carrier} (hset : c.set f datum = .ok d) : e.kind = t.kind ∧
      d = { c with params := c.params.write t (e.key c.version) datum c.version } := by
  rw [set_of_registered hr he hid] at hset
  split at hset
  case isTrue hkind =>
    cases hset
    exact ⟨hkind, rfl⟩
  case isFalse => cases hset

/-- An accepted write of a finite datum stores its value. -/
theorem getRaw_of_set (hr : r.Valid) (he : e ∈ r.entries) (hid : e.id = f.id) (hx : t.IsFinite x)
    (hset : c.set f (some x) = .ok d) : d.getRaw e.id = some (t.encode c.version x) := by
  obtain ⟨-, rfl⟩ := eq_of_set hr he hid hset
  have hstored := WireType.filter_isAbsent_encode c.version (some x) (by rintro _ ⟨⟩; exact hx)
  rw [getRaw_of_registered hr he, Params.get?_write, if_pos rfl, hstored]
  rfl

/-- What was written is resolved with the registered type. -/
theorem resolve_of_set (hr : r.Valid) (he : e ∈ r.entries) (hid : e.id = f.id) (hx : t.IsFinite x)
    (hset : c.set f (some x) = .ok d) :
    d.resolve e.id = e.type.transcode c.version c.version (t.encode c.version x) := by
  rw [resolve_of_registered hr he, getRaw_of_set hr he hid hx hset, version_of_set hset]
  rfl

/-! ## Conversions -/

/-- A conversion keeps what it can read of a field. -/
theorem getRaw_toVersion (hr : r.Valid) (hc : c.params.WellFormed) (he : e ∈ r.entries)
    (w : Version) : (c.toVersion w).getRaw e.id =
      ((c.getRaw e.id).bind (e.type.transcode c.version w)).or (c.carried? (e.key w)) := by
  rw [getRaw_of_registered hr he, getRaw_of_registered hr he, version_toVersion,
    get?_toVersion hr hc, converted?_key hr he]
  rfl

/-- A written value that can be read is kept by every conversion. -/
theorem getRaw_toVersion_of_set (hr : r.Valid) (hc : c.params.WellFormed) (he : e ∈ r.entries)
    (hid : e.id = f.id) (hx : t.IsFinite x) (hset : c.set f (some x) = .ok d) (w : Version)
    {value : Value} (hvalue : e.type.transcode c.version w (t.encode c.version x) = some value) :
    (d.toVersion w).getRaw e.id = some value := by
  have hd : d.params.WellFormed := by
    obtain ⟨-, rfl⟩ := eq_of_set hr he hid hset
    exact hc.write _ _ _
  rw [getRaw_toVersion hr hd he, getRaw_of_set hr he hid hx hset, version_of_set hset,
    Option.bind_some, hvalue]
  rfl

/-! ## What resolves -/

/-- A write is accepted exactly if the handle's identifier is registered with the handle's kind.
What was written resolves exactly if the registered type writes it too, which it does if it is the
handle's own type or the only one of its kind; then it is listed, and a conversion keeps the datum
that the registered type reads. Of integers, alone and in lists, those resolve that fit. -/
theorem resolve_set_eq_some_iff (hr : r.validate = .ok ()) (hc : c.params.Built) (f : Field t)
    (hx : t.IsFinite x) :
    let value := t.encode c.version x
    ((∃ d, c.set f (some x) = .ok d) ↔ r.Accepts f) ∧
    ∀ d, c.set f (some x) = .ok d → ∃ e ∈ r.entries, e.id = f.id ∧ e.kind = t.kind ∧
      d.getRaw f.id = some value ∧
      (d.resolve f.id = some value ↔ e.type.Writes c.version value) ∧
      (e.type.Writes c.version value → (f.id, value) ∈ d.resolved ∧
        ∃ y, e.type.decode c.version value = some y ∧ e.type.encode c.version y = value ∧
          ∀ w, (d.toVersion w).getRaw f.id = some (e.type.encode w y)) ∧
      (t = e.type ∨ t.kind.innermost ∈ [Kind.bool, .float, .text] →
        e.type.Writes c.version value) ∧
      (t.kind.innermost = .integer → d.resolve f.id = e.type.fitting? value ∧
        ∀ w kept, e.type.fitting? value = some kept → (d.toVersion w).getRaw f.id = some kept) := by
  intro value
  have hvalid := (Registry.validate_eq_ok_iff r).1 hr
  refine ⟨set_isOk_iff hvalid, fun d hset => ?_⟩
  obtain ⟨e, he, hid, hkind⟩ := (set_isOk_iff hvalid).1 ⟨d, hset⟩
  have hresolve := resolve_of_set hvalid he hid hx hset
  have hkept := getRaw_toVersion_of_set hvalid hc.wellFormed he hid hx hset
  have hwrites : d.resolve e.id = some value ↔ e.type.Writes c.version value := by
    rw [hresolve]
    exact WireType.transcode_eq_self_iff (t.isFinite_encode c.version x)
  refine ⟨e, he, hid, hkind, ?_⟩
  rw [← hid]
  refine ⟨getRaw_of_set hvalid he hid hx hset, hwrites, fun h => ?_, fun h => ?_, fun h => ?_⟩
  · have hself := hwrites.2 h
    rw [hresolve] at hself
    obtain ⟨y, hdecode, hencode⟩ := Option.map_eq_some_iff.1 hself
    refine ⟨mem_resolved he (hwrites.2 h), y, hdecode, hencode, fun w => hkept w ?_⟩
    exact congrArg (Option.map (e.type.encode w)) hdecode
  · obtain rfl : t = e.type := h.elim id (t.eq_of_kind_eq e.type hkind.symm)
    exact WireType.writes_encode c.version hx
  · have hfitting := fun w =>
      WireType.transcode_encode_of_integers c.version w t e.type x hkind.symm h
    refine ⟨hresolve.trans (hfitting c.version), fun w kept h => hkept w ?_⟩
    exact (hfitting w).trans h

open Catalog in
/-- The engine speed, written through a handle of another width and with another key. -/
theorem resolve_set_eq_some_iff_rpm :
    let f : Field .int64 := .fixed .int64 "rpm" "engineSpeed"
    vehicleData.validate = .ok () ∧ Params.empty.Built ∧ WireType.int64.IsFinite 3000 ∧
      ∃ d, (empty vehicleData .v5).set f (some 3000) = .ok d ∧
        d.resolve "rpm" = some (.integer 3000) := by
  intro f
  have hrpm : VehicleData.rpm.entry ∈ vehicleData.entries := by simp [vehicleData]
  obtain ⟨haccepted, hresolved⟩ := resolve_set_eq_some_iff (c := empty vehicleData .v5) (x := 3000)
    validate_vehicleData .empty f trivial
  obtain ⟨d, hset⟩ := haccepted.2 ⟨_, hrpm, rfl, rfl⟩
  obtain ⟨e, he, hid, -, -, -, -, -, hinteger⟩ := hresolved d hset
  have hvalid := (Registry.validate_eq_ok_iff vehicleData).1 validate_vehicleData
  obtain rfl := hvalid.eq_of_id_eq he hrpm hid
  exact ⟨validate_vehicleData, .empty, trivial, d, hset, (hinteger rfl).1⟩

open Catalog in
/-- An accepted write need not resolve: the registered engine speed is never negative. -/
theorem not_forall_resolve_set_eq_some : ¬ ∀ (r : Registry), r.validate = .ok () →
    ∀ (c : Container r), c.params.Built → ∀ (t : WireType) (f : Field t) (x : t.Carrier),
      t.IsFinite x → ∀ d, c.set f (some x) = .ok d →
        d.resolve f.id = some (t.encode c.version x) := by
  intro h
  have hresolve := h vehicleData validate_vehicleData (empty vehicleData .v5) .empty .int64
    (.fixed .int64 "rpm" "rpm") (-5) trivial
    ⟨.v5, .ofList [("rpm", .integer (-5))]⟩ rfl
  revert hresolve
  decide +kernel

end Container

end HeadUnit
