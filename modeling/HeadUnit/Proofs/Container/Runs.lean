import HeadUnit.Proofs.Catalog.WireTypes
import HeadUnit.Proofs.Container.Assignments
import HeadUnit.Proofs.Container.Conversion

/-!
# Runs of conversions and writes

In a settled container no stored key waits to be taken for a field at another version. There a
conversion moves every value by itself and does not depend on the way, and writes of registered
fields commute with it. So a run of conversions and writes that ends at a version is one
conversion to that version with the writes after it.

## Main definitions

* `Step`, `Container.run` — a conversion or a write of a registered field, and runs of them.
* `Container.Settled` — the invariant of such runs.

## Main statements

* `Container.toVersion_toVersion`, `Container.toVersion_assign` — what conversions commute with.
* `Container.exists_run_toVersion` — a run of any length, and the conversion after it.
* `Container.run_toVersion`, `Container.run_toVersion_of_isType` — runs, and conversions over any
  versions, for lawful types and for those of the catalog.
-/

namespace HeadUnit

variable {r : Registry} {v w : Version} {e : Entry}

/-- A conversion, or a write of a registered field. -/
inductive Step (r : Registry) where
  | convert (w : Version)
  | assign (a : Assignment r)

namespace Step

def assignment? : Step r → Option (Assignment r)
  | .convert _ => none
  | .assign a => some a

/-- What the step writes is finite. -/
def IsFinite (s : Step r) : Prop :=
  ∀ a, s.assignment? = some a → a.IsFinite

end Step

namespace Container

variable {c : Container r} {a : Assignment r}

def step (c : Container r) : Step r → Except Error (Container r)
  | .convert w => .ok (c.toVersion w)
  | .assign a => c.set a.entry.field a.datum

/-- The steps one after another, until a write is refused. -/
def run (c : Container r) (steps : List (Step r)) : Except Error (Container r) :=
  steps.foldlM step c

/-- Well-formed and finite parameters, in which no key that is unregistered at the container's
version is a registered one at another. -/
structure Settled (c : Container r) : Prop where
  wellFormed : c.params.WellFormed
  isFinite : c.params.IsFinite
  unambiguous : ∀ key ∈ c.unregisteredKeys, ∀ v, r.entryForKey? key v = none

/-! ## The invariant -/

theorem carried?_assign (hr : r.Valid) (ha : a.IsFinite) (key : String) :
    (c.assign a).carried? key = c.carried? key := by
  unfold carried?
  cases hkey : c.isRegistered key with
  | true => rw [if_pos rfl, if_pos (by rwa [isRegistered, version_assign])]
  | false =>
    have hne := (isRegistered_eq_false_iff key).1 hkey a.entry a.registered
    rw [get?_assign hr ha, if_neg hne, isRegistered, version_assign, ← isRegistered, hkey]

namespace Settled

/-- In a settled container no key of a field is carried along. -/
theorem carried?_key (hc : c.Settled) (he : e ∈ r.entries) (w : Version) :
    c.carried? (e.key w) = none := by
  by_contra h
  have hnone := hc.unambiguous _ ((mem_unregisteredKeys_iff _).2 h) w
  exact (Registry.entryForKey?_eq_none_iff _ _).1 hnone e he rfl

theorem get?_toVersion_key (hr : r.Valid) (hc : c.Settled) (he : e ∈ r.entries) (w : Version) :
    (c.toVersion w).params.get? (e.key w) =
      (c.params.get? (e.key c.version)).bind fun raw => e.transcode raw c.version w := by
  rw [get?_toVersion hr hc.wellFormed, converted?_key hr he, hc.carried?_key he, Option.or_none]

theorem get?_toVersion_of_unregistered (hr : r.Valid) (hc : c.Settled) {key : String}
    (h : r.entryForKey? key w = none) : (c.toVersion w).params.get? key = c.carried? key := by
  rw [get?_toVersion hr hc.wellFormed, converted?, h]
  rfl

/-- A conversion carries along the same members as the container before. -/
theorem carried?_toVersion (hr : r.Valid) (hc : c.Settled) (w : Version) (key : String) :
    (c.toVersion w).carried? key = c.carried? key := by
  unfold carried? isRegistered
  rw [version_toVersion]
  cases hfind : r.entryForKey? key w with
  | none => exact get?_toVersion_of_unregistered hr hc hfind
  | some e =>
    obtain ⟨he, rfl⟩ := hr.entryForKey?_eq_some_iff.1 hfind
    exact (hc.carried?_key he w).symm

theorem toVersion (hr : r.Valid) (hc : c.Settled) (w : Version) : (c.toVersion w).Settled := by
  refine ⟨wellFormed_toVersion hc.wellFormed w, isFinite_toVersion hc.isFinite w, ?_⟩
  intro key hkey
  rw [mem_unregisteredKeys_iff, carried?_toVersion hr hc] at hkey
  exact hc.unambiguous key ((mem_unregisteredKeys_iff _).2 hkey)

theorem assign (hr : r.Valid) (hc : c.Settled) (ha : a.IsFinite) : (c.assign a).Settled := by
  refine ⟨wellFormed_assign hr hc.wellFormed a, isFinite_assign hr hc.isFinite a, ?_⟩
  intro key hkey
  rw [mem_unregisteredKeys_iff, carried?_assign hr ha] at hkey
  exact hc.unambiguous key ((mem_unregisteredKeys_iff _).2 hkey)

theorem foldl_assign (hr : r.Valid) (hc : c.Settled) {assignments : List (Assignment r)}
    (hfinite : ∀ a ∈ assignments, a.IsFinite) :
    (assignments.foldl Container.assign c).Settled := by
  induction assignments generalizing c with
  | nil => exact hc
  | cons a rest ih =>
    obtain ⟨ha, hrest⟩ := List.forall_mem_cons.1 hfinite
    exact ih (hc.assign hr ha) hrest

end Settled

theorem settled_empty (r : Registry) (v : Version) : (empty r v).Settled :=
  ⟨Params.wellFormed_empty, Params.isFinite_empty, fun _ h => nomatch h⟩

/-! ## What conversions commute with -/

/-- Well-formed containers at one version are equal if they store the same values. -/
theorem eq_of_get?_eq {d : Container r} (hversion : c.version = d.version)
    (hc : c.params.WellFormed) (hd : d.params.WellFormed)
    (h : ∀ key, c.params.get? key = d.params.get? key) : c = d := by
  cases c
  cases d
  congr 1
  exact Params.eq_of_get?_eq hc hd h

/-- A conversion does not depend on the version in between. -/
theorem toVersion_toVersion (hr : r.Valid) (hlawful : ∀ e ∈ r.entries, e.type.Lawful)
    (hc : c.Settled) (v w : Version) : (c.toVersion v).toVersion w = c.toVersion w := by
  have hv := hc.toVersion hr v
  refine eq_of_get?_eq rfl (hv.toVersion hr w).wellFormed (hc.toVersion hr w).wellFormed ?_
  intro key
  cases hfind : r.entryForKey? key w with
  | none =>
    rw [hv.get?_toVersion_of_unregistered hr hfind, hc.get?_toVersion_of_unregistered hr hfind,
      hc.carried?_toVersion hr]
  | some e =>
    obtain ⟨he, rfl⟩ := hr.entryForKey?_eq_some_iff.1 hfind
    rw [hv.get?_toVersion_key hr he, hc.get?_toVersion_key hr he, version_toVersion,
      hc.get?_toVersion_key hr he, Option.bind_assoc]
    apply Option.bind_congr
    intro raw hraw
    exact WireType.transcode_transcode c.version (hlawful e he v) (hc.isFinite.get? hraw)

/-- A conversion commutes with the write of a registered field. -/
theorem toVersion_assign (hr : r.Valid) (hlawful : ∀ e ∈ r.entries, e.type.Lawful)
    (hc : c.Settled) (ha : a.IsFinite) (w : Version) :
    (c.assign a).toVersion w = (c.toVersion w).assign a := by
  have hlawful := hlawful a.entry a.registered
  have hassign := hc.assign hr ha
  refine eq_of_get?_eq ?_ (hassign.toVersion hr w).wellFormed
    ((hc.toVersion hr w).assign hr ha).wellFormed ?_
  · rw [version_assign, version_toVersion, version_toVersion]
  intro key
  rw [get?_assign (c := c.toVersion w) hr ha, version_toVersion]
  cases hfind : r.entryForKey? key w with
  | none =>
    have hne := (Registry.entryForKey?_eq_none_iff _ _).1 hfind a.entry a.registered
    rw [hassign.get?_toVersion_of_unregistered hr hfind, if_neg hne,
      hc.get?_toVersion_of_unregistered hr hfind, carried?_assign hr ha]
  | some e =>
    obtain ⟨he, rfl⟩ := hr.entryForKey?_eq_some_iff.1 hfind
    rw [hassign.get?_toVersion_key hr he, hc.get?_toVersion_key hr he, version_assign,
      get?_assign hr ha]
    -- The two fields are one, or they have different keys at either version.
    by_cases hkey : a.entry.key w = e.key w
    · obtain rfl := hr.eq_of_key_eq a.registered he hkey
      rw [if_pos rfl, if_pos rfl, Assignment.bind_transcode_value? ha (hlawful c.version)]
    · have hne : a.entry.key c.version ≠ e.key c.version := fun h =>
        hkey (hr.eq_of_key_eq a.registered he h ▸ rfl)
      rw [if_neg hkey, if_neg hne]

/-! ## Runs -/

/-- The container after a step; writes of registered fields are not refused. -/
def after (c : Container r) : Step r → Container r
  | .convert w => c.toVersion w
  | .assign a => c.assign a

theorem run_eq_ok (hr : r.Valid) (c : Container r) (steps : List (Step r)) :
    c.run steps = .ok (steps.foldl after c) := by
  induction steps generalizing c with
  | nil => rfl
  | cons s rest ih =>
    have hstep : c.step s = .ok (c.after s) := by
      cases s with
      | convert w => rfl
      | assign a => exact set_eq_ok_assign hr c a
    unfold run at ih ⊢
    rw [List.foldlM_cons, hstep]
    exact ih (c.after s)

theorem toVersion_foldl_after (hr : r.Valid) (hlawful : ∀ e ∈ r.entries, e.type.Lawful)
    (hc : c.Settled) {steps : List (Step r)} (hfinite : ∀ s ∈ steps, s.IsFinite) (w : Version) :
    (steps.foldl after c).toVersion w =
      (steps.filterMap Step.assignment?).foldl assign (c.toVersion w) := by
  induction steps generalizing c with
  | nil => rfl
  | cons s rest ih =>
    obtain ⟨hs, hrest⟩ := List.forall_mem_cons.1 hfinite
    cases s with
    | convert u =>
      rw [List.foldl_cons, after, ih (hc.toVersion hr u) hrest,
        toVersion_toVersion hr hlawful hc]
      rfl
    | assign a =>
      have ha : a.IsFinite := hs a rfl
      have hassign := hc.assign hr ha
      rw [List.foldl_cons, after, ih hassign hrest, toVersion_assign hr hlawful hc ha]
      rfl

/-- A conversion commutes with assignments. -/
theorem toVersion_foldl_assign (hr : r.Valid) (hlawful : ∀ e ∈ r.entries, e.type.Lawful)
    (hc : c.Settled) {assignments : List (Assignment r)} (hfinite : ∀ a ∈ assignments, a.IsFinite)
    (w : Version) :
    (assignments.foldl assign c).toVersion w = assignments.foldl assign (c.toVersion w) := by
  have hsteps : ∀ s ∈ assignments.map Step.assign, s.IsFinite := by
    intro s hs
    obtain ⟨a, ha, rfl⟩ := List.mem_map.1 hs
    rintro _ ⟨⟩
    exact hfinite a ha
  have h := toVersion_foldl_after hr hlawful hc hsteps w
  have hfilter : (assignments.map Step.assign).filterMap Step.assignment? = assignments := by
    rw [List.filterMap_map]
    exact List.filterMap_some
  rwa [List.foldl_map, hfilter] at h

/-- A run goes through, and leaves at a version what its writes alone leave there. -/
theorem exists_run_toVersion (hr : r.Valid) (hlawful : ∀ e ∈ r.entries, e.type.Lawful)
    (hc : c.Settled) {steps : List (Step r)} (hfinite : ∀ s ∈ steps, s.IsFinite) (w : Version) :
    ∃ d, c.run steps = .ok d ∧
      (c.toVersion w).assignAll (steps.filterMap Step.assignment?) = .ok (d.toVersion w) := by
  refine ⟨_, run_eq_ok hr c steps, ?_⟩
  rw [assignAll_eq_ok hr, toVersion_foldl_after hr hlawful hc hfinite]

/-- If the vocabularies have distinct names at every version, that is all that is asked of the
types that the catalog's fields are made of: its records have keys of their own. -/
theorem run_toVersion_of_isType (hr : r.validate = .ok ())
    (htypes : ∀ e ∈ r.entries, Catalog.IsType (fun table => ∀ v, table.DistinctAt v) e.type)
    (hc : c.Settled) {steps : List (Step r)} (hfinite : ∀ s ∈ steps, s.IsFinite) (w : Version) :
    (∃ d, c.run steps = .ok d ∧
      (c.toVersion w).assignAll (steps.filterMap Step.assignment?) = .ok (d.toVersion w)) ∧
    ∀ u, (c.toVersion u).toVersion w = c.toVersion w := by
  have hvalid := (Registry.validate_eq_ok_iff r).1 hr
  have hlawful : ∀ e ∈ r.entries, e.type.Lawful := fun e he => (htypes e he).lawful
  exact ⟨exists_run_toVersion hvalid hlawful hc hfinite w,
    fun u => toVersion_toVersion hvalid hlawful hc u w⟩

/-- A run of conversions and writes of registered fields on a settled container goes through, and
its result at a version is that of the writes alone after one conversion to the version. So
conversions do not depend on the way. The types have to be lawful: the words of each vocabulary
need names of their own, and the members of each record keys of their own, at every version. -/
theorem run_toVersion (hr : r.validate = .ok ()) (hlawful : ∀ e ∈ r.entries, e.type.Lawful)
    (hc : c.Settled) {steps : List (Step r)} (hfinite : ∀ s ∈ steps, s.IsFinite) (w : Version) :
    (∃ d, c.run steps = .ok d ∧
      (c.toVersion w).assignAll (steps.filterMap Step.assignment?) = .ok (d.toVersion w)) ∧
    (∀ u, (c.toVersion u).toVersion w = c.toVersion w) ∧
    (c.toVersion w).toVersion w = c.toVersion w ∧
    ∀ u, (c.toVersion u).toVersion c.version = c.toVersion c.version := by
  have hvalid := (Registry.validate_eq_ok_iff r).1 hr
  have hconvert := toVersion_toVersion hvalid hlawful hc
  exact ⟨exists_run_toVersion hvalid hlawful hc hfinite w, fun u => hconvert u w, hconvert w w,
    fun u => hconvert u c.version⟩

open Catalog in
/-- A fuel level state that is written between conversions, next to a member of the vendor's. -/
theorem run_toVersion_vehicleData :
    let c : Container vehicleData := ⟨.v3, .ofJson (.object [("vendorExtension", .bool true)])⟩
    let state : Assignment vehicleData :=
      ⟨VehicleData.fuelLevelState.entry, by simp [vehicleData], some ⟨4, by decide⟩⟩
    let steps : List (Step vehicleData) := [.convert .v5, .assign state, .convert .v1]
    vehicleData.validate = .ok () ∧ (∀ e ∈ vehicleData.entries, e.type.Lawful) ∧ c.Settled ∧
      (∀ s ∈ steps, s.IsFinite) ∧
      ∃ d, c.run steps = .ok d ∧ (c.toVersion .v4).assignAll [state] = .ok (d.toVersion .v4) := by
  intro c state steps
  have hc : c.Settled := by
    refine ⟨Params.wellFormed_ofJson _, Params.isFinite_ofJson _, ?_⟩
    decide +kernel
  have hfinite : ∀ s ∈ steps, s.IsFinite := by
    simp [steps, state, Step.IsFinite, Step.assignment?, Assignment.IsFinite, WireType.IsFinite,
      VehicleData.fuelLevelState, Field.entry]
  exact ⟨validate_vehicleData, lawful_vehicleData, hc, hfinite,
    (run_toVersion validate_vehicleData lawful_vehicleData hc hfinite .v4).1⟩

end Container

end HeadUnit
