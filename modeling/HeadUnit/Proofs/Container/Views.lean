import HeadUnit.Proofs.Container.Rekeying
import HeadUnit.Proofs.Container.Resolution
import HeadUnit.Proofs.Registry.Inverse

/-!
# Two views of a container

A container is listed in two ways: the registry's fields are looked up among the stored keys, and
the stored keys among the registry's fields. Over a valid registry the look-ups are inverse, so
each stored key is seen in one of the ways only, and what the two lists show is what a conversion
to the container's own version keeps.

## Main definitions

* `Members.collect` — the members that a partial map gives for the items of a list.
* `Container.Reachable` — containers that were made from parameters, written and converted.
* `Container.resolvedMembers`, `Container.unregisteredMembers` — what the two lists show, by key.

## Main statements

* `Container.resolve_eq_map_get` — what is listed for a field is what is read of it.
* `Container.resolved_unregisteredKeys_partition` — the two lists and a conversion in place.
-/

namespace HeadUnit

namespace Members

variable {α β : Type} {name : α → String} {value? : α → Option β}

/-- The members that `value?` gives for the items, under their names. -/
def collect (name : α → String) (value? : α → Option β) (items : List α) : Members β :=
  items.filterMap fun item => (value? item).map (name item, ·)

theorem mem_collect {items : List α} {key : String} {x : β} :
    (key, x) ∈ collect name value? items ↔
      ∃ item ∈ items, name item = key ∧ value? item = some x := by
  simp only [collect, List.mem_filterMap, Option.map_eq_some_iff, Prod.mk.injEq]
  constructor
  · rintro ⟨item, hitem, _, hvalue, hname, rfl⟩
    exact ⟨item, hitem, hname, hvalue⟩
  · rintro ⟨item, hitem, hname, hvalue⟩
    exact ⟨item, hitem, x, hvalue, hname, rfl⟩

/-- The names of the items come in their order. -/
theorem keys_collect_sublist (name : α → String) (value? : α → Option β) (items : List α) :
    (keys (collect name value? items)).Sublist (items.map name) := by
  induction items with
  | nil => exact .slnil
  | cons item rest ih =>
    rw [collect, List.filterMap_cons, List.map_cons]
    cases value? item with
    | none => exact ih.cons _
    | some x => exact ih.cons_cons _

end Members

namespace Container

variable {r : Registry} {c : Container r} {e : Entry} {key : String} {x : Value}

/-- Containers that were made from parameters, and then written through handles of any type and
converted to other versions. -/
inductive Reachable : Container r → Prop where
  | ofParams (v : Version) {p : Params} (h : p.Built) : Reachable ⟨v, p⟩
  | set {c d : Container r} {t : WireType} (f : Field t) (datum : Option t.Carrier)
    (h : Reachable c) (hset : c.set f datum = .ok d) : Reachable d
  | toVersion {c : Container r} (w : Version) (h : Reachable c) : Reachable (c.toVersion w)

theorem Reachable.wellFormed (hr : r.Valid) (h : c.Reachable) : c.params.WellFormed := by
  induction h with
  | ofParams _ h => exact h.wellFormed
  | set f datum _ hset ih =>
    obtain ⟨e, he, hid, -⟩ := (set_isOk_iff hr).1 ⟨_, hset⟩
    obtain ⟨-, rfl⟩ := eq_of_set hr he hid hset
    exact ih.write _ _ _
  | toVersion w _ ih => exact wellFormed_toVersion ih w

/-! ## The registry's view -/

/-- What the registry lists, under the keys of the fields. -/
def resolvedMembers (c : Container r) : Members Value :=
  c.resolved.filterMap fun m => (r.resolveKey? m.1 c.version).map (·, m.2)

theorem resolved_eq_collect (c : Container r) :
    c.resolved = Members.collect (fun e => e.id) (fun e => c.resolve e.id) r.entries := rfl

theorem resolvedMembers_eq_collect (hr : r.Valid) (c : Container r) : c.resolvedMembers =
    Members.collect (·.key c.version) (fun e => c.resolve e.id) r.entries := by
  rw [resolvedMembers, resolved, List.filterMap_filterMap, Members.collect]
  refine List.filterMap_congr fun e he => ?_
  cases c.resolve e.id with
  | none => rfl
  | some value =>
    rw [Option.map_some, Option.bind_some, hr.resolveKey?_id he]
    rfl

theorem mem_resolved_iff (hr : r.Valid) (he : e ∈ r.entries) :
    (e.id, x) ∈ c.resolved ↔ c.resolve e.id = some x := by
  rw [resolved_eq_collect, Members.mem_collect]
  constructor
  · rintro ⟨d, hd, hid, hresolve⟩
    obtain rfl := hr.eq_of_id_eq hd he hid
    exact hresolve
  · exact fun hresolve => ⟨e, he, rfl, hresolve⟩

/-- What is listed for a field is what is read of it. -/
theorem resolve_eq_map_get (hr : r.Valid) (he : e ∈ r.entries) :
    c.resolve e.id = (c.get e.field).map (e.type.encode c.version) := by
  have hget : c.get e.field = (c.getRaw e.id).bind (e.type.decode c.version) :=
    get_eq_getRaw hr ⟨e, he, rfl, rfl⟩
  rw [resolve_of_registered hr he, hget]
  cases c.getRaw e.id <;> rfl

/-- What the registry lists is what a conversion in place reads. -/
theorem mem_resolvedMembers_iff (hr : r.Valid) :
    (key, x) ∈ c.resolvedMembers ↔ c.converted? c.version key = some x := by
  rw [resolvedMembers_eq_collect hr, Members.mem_collect, converted?_eq_some_iff hr]
  refine exists_congr fun e => and_congr_right fun he => and_congr_right fun _ => ?_
  rw [resolve_of_registered hr he, getRaw_of_registered hr he, Option.bind_eq_some_iff]
  rfl

/-! ## The parameters' view -/

/-- The stored members whose keys no field has. -/
def unregisteredMembers (c : Container r) : Members Value :=
  c.unregisteredKeys.filterMap fun key => (c.params.get? key).map (key, ·)

theorem unregisteredMembers_eq_collect (c : Container r) :
    c.unregisteredMembers = Members.collect id c.params.get? c.unregisteredKeys := rfl

theorem mem_unregisteredMembers_iff :
    (key, x) ∈ c.unregisteredMembers ↔ c.carried? key = some x := by
  rw [unregisteredMembers_eq_collect, Members.mem_collect]
  constructor
  · rintro ⟨_, hkey, rfl, hget⟩
    have hunregistered := (List.mem_filter.1 hkey).2
    rw [carried?, if_neg (by simpa using hunregistered)]
    exact hget
  · intro hcarried
    have hkey : key ∈ c.unregisteredKeys := (mem_unregisteredKeys_iff _).2 (by simp [hcarried])
    exact ⟨key, hkey, rfl, (carried?_eq_some_iff.1 hcarried).2⟩

theorem nodup_unregisteredKeys (hc : c.params.WellFormed) : c.unregisteredKeys.Nodup :=
  hc.1.nodup_keys.filter _

/-- A stored key is that of one field, or of none and listed once. -/
theorem existsUnique_or_count_unregisteredKeys (hr : r.Valid) (hc : c.params.WellFormed)
    (hkey : key ∈ c.params.keys) :
    (∃! e, e ∈ r.entries ∧ e.key c.version = key) ∧ key ∉ c.unregisteredKeys ∨
      (∀ e ∈ r.entries, e.key c.version ≠ key) ∧ c.unregisteredKeys.count key = 1 := by
  cases hregistered : c.isRegistered key with
  | true =>
    obtain ⟨e, hfind⟩ := Option.isSome_iff_exists.1 hregistered
    obtain ⟨he, hkey⟩ := hr.entryForKey?_eq_some_iff.1 hfind
    refine .inl ⟨⟨e, ⟨he, hkey⟩, ?_⟩, ?_⟩
    · rintro d ⟨hd, hdkey⟩
      exact hr.eq_of_key_eq hd he (hdkey.trans hkey.symm)
    · simp [unregisteredKeys, hregistered]
  | false =>
    refine .inr ⟨(isRegistered_eq_false_iff key).1 hregistered, ?_⟩
    have hlisted : key ∈ c.unregisteredKeys := List.mem_filter.2 ⟨hkey, by simp [hregistered]⟩
    exact List.count_eq_one_of_mem (nodup_unregisteredKeys hc) hlisted

/-! ## Both views -/

theorem disjoint_keys (hr : r.Valid) (c : Container r) :
    (Members.keys c.resolvedMembers).Disjoint (Members.keys c.unregisteredMembers) := by
  intro key hresolved hunregistered
  rw [resolvedMembers_eq_collect hr] at hresolved
  obtain ⟨e, he, hkey⟩ := List.mem_map.1 ((Members.keys_collect_sublist _ _ _).subset hresolved)
  obtain ⟨⟨_, x⟩, hmem, rfl⟩ := List.mem_map.1 hunregistered
  exact (carried?_eq_some_iff.1 (mem_unregisteredMembers_iff.1 hmem)).1 e he hkey

/-- No key comes twice among what the two lists show. -/
theorem nodup_keys_views (hr : r.Valid) (hc : c.params.WellFormed) :
    (Members.keys (c.resolvedMembers ++ c.unregisteredMembers)).Nodup := by
  rw [Members.keys_append]
  refine .append ?_ ?_ (disjoint_keys hr c)
  · rw [resolvedMembers_eq_collect hr]
    exact (hr.keys c.version).sublist (Members.keys_collect_sublist _ _ _)
  · have hsublist := Members.keys_collect_sublist id c.params.get? c.unregisteredKeys
    rw [List.map_id] at hsublist
    exact (nodup_unregisteredKeys hc).sublist hsublist

/-- A conversion in place keeps exactly what the two lists show. -/
theorem members_toVersion_perm (hr : r.Valid) (hc : c.params.WellFormed) :
    (c.toVersion c.version).params.members.Perm (c.resolvedMembers ++ c.unregisteredMembers) := by
  have hconverted := (wellFormed_toVersion hc c.version).1
  refine (List.perm_ext_iff_of_nodup hconverted.nodup (nodup_keys_views hr hc).of_map).2 ?_
  rintro ⟨key, x⟩
  -- At the container's own version no field takes the place of a carried key.
  have hexclusive (h : c.carried? key = some x) : c.converted? c.version key = none := by
    refine Option.bind_eq_none_iff.2 fun e hfind => ?_
    obtain ⟨he, hkey⟩ := hr.entryForKey?_eq_some_iff.1 hfind
    exact absurd hkey ((carried?_eq_some_iff.1 h).1 e he)
  rw [← Members.get?_eq_some_iff hconverted, List.mem_append, mem_resolvedMembers_iff hr,
    mem_unregisteredMembers_iff]
  change (c.toVersion c.version).params.get? key = some x ↔ _
  rw [get?_toVersion hr hc, Option.or_eq_some_iff]
  exact or_congr_right ⟨And.right, fun h => ⟨hexclusive h, h⟩⟩

/-- A stored key is that of exactly one field, or else it is listed once as unregistered. The
registry lists, in its order and once each, the fields whose stored values can be read, with what
is read of them. Both lists together, each key with its value, are what a conversion to the
container's own version stores. -/
theorem resolved_unregisteredKeys_partition (hr : r.validate = .ok ()) (hc : c.Reachable) :
    (∀ key ∈ c.params.keys,
      (∃! e, e ∈ r.entries ∧ e.key c.version = key) ∧ key ∉ c.unregisteredKeys ∨
        (∀ e ∈ r.entries, e.key c.version ≠ key) ∧ c.unregisteredKeys.count key = 1) ∧
    c.unregisteredKeys.Sublist c.params.keys ∧
    (c.resolved.map Prod.fst).Sublist (r.entries.map fun e => e.id) ∧
    (c.resolved.map Prod.fst).Nodup ∧
    (∀ e ∈ r.entries,
      (e.id ∈ c.resolved.map Prod.fst ↔
        ∃ raw, c.params.get? (e.key c.version) = some raw ∧
          e.type.decode c.version raw ≠ none) ∧
      ∀ value, (e.id, value) ∈ c.resolved ↔
        ∃ x, c.get e.field = some x ∧ e.type.encode c.version x = value) ∧
    (c.toVersion c.version).params.members.Perm (c.resolvedMembers ++ c.unregisteredMembers) ∧
    (Members.keys c.resolvedMembers).Disjoint (Members.keys c.unregisteredMembers) := by
  have hvalid := (Registry.validate_eq_ok_iff r).1 hr
  have hparams := hc.wellFormed hvalid
  have hsublist : (c.resolved.map Prod.fst).Sublist (r.entries.map fun e => e.id) :=
    Members.keys_collect_sublist _ _ _
  refine ⟨fun key => existsUnique_or_count_unregisteredKeys hvalid hparams, List.filter_sublist,
    hsublist, hvalid.ids.sublist hsublist, fun e he => ⟨?_, fun value => ?_⟩,
    members_toVersion_perm hvalid hparams, disjoint_keys hvalid c⟩
  · have hlisted : e.id ∈ c.resolved.map Prod.fst ↔ ∃ value, c.resolve e.id = some value := by
      simp only [List.mem_map, Prod.exists, exists_and_right, exists_eq_right,
        mem_resolved_iff hvalid he]
    rw [hlisted, ← Option.isSome_iff_exists, resolve_eq_map_get hvalid he, Option.isSome_map,
      Option.isSome_iff_ne_none, get_field hvalid he, Params.read]
    cases c.params.get? (e.key c.version) <;> simp
  · rw [mem_resolved_iff hvalid he, resolve_eq_map_get hvalid he, Option.map_eq_some_iff]

open Catalog in
/-- Of four members one is read, one has another form, and two have no field at this version. -/
theorem resolved_unregisteredKeys_partition_vehicleData :
    let c : Container vehicleData := ⟨.v5, .ofJson (.object [("com.vendor", .bool true),
      ("fuelLevel_State", .string "LOW"), ("prndl", .string "DRIVE"), ("rpm", .string "fast")])⟩
    vehicleData.validate = .ok () ∧ c.Reachable ∧
      (c.toVersion .v5).params.members.Perm [("prndl", .text "DRIVE"), ("com.vendor", .bool true),
        ("fuelLevel_State", .text "LOW")] := by
  intro c
  have hc : c.Reachable := .ofParams .v5 (.ofJson _)
  obtain ⟨-, -, -, -, -, hperm, -⟩ :=
    resolved_unregisteredKeys_partition validate_vehicleData hc
  refine ⟨validate_vehicleData, hc, hperm.trans (.of_eq ?_)⟩
  decide +kernel

end Container

end HeadUnit
