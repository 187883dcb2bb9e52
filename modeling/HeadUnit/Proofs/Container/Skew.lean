import HeadUnit.Proofs.Container.Assignments
import HeadUnit.Proofs.WireType.Plain

/-!
# Version skew

A container is filled at one version and its parameters are viewed at another, without a
conversion. If no field ever has a key of another field, and no word a name of another word,
whichever the versions, then nothing is taken for something else: a field that has its key and its
value at both versions is read as it was, and any other field reads as nothing.

## Main definitions

* `Vocabulary.Apart`, `WireType.Apart`, `Registry.Apart` — names, values and keys that are never
  those of another word, datum or field.
* `Container.viewedAt` — the same parameters at another version.

## Main statements

* `WireType.decode_encode_of_apart` — what a type reads of a value of another version.
* `Container.get_viewedAt` — what a field reads as after a run of assignments.
-/

namespace HeadUnit

variable {v w : Version}

/-! ## Names of words -/

namespace Vocabulary

variable {t : Vocabulary}

/-- A name that two words have, at one version or at two, is a name of one word. -/
def Apart (t : Vocabulary) : Prop :=
  ∀ v w, ∀ a b : t.Word, t.wireName v a = t.wireName w b → a = b

instance (t : Vocabulary) : Decidable t.Apart :=
  inferInstanceAs (Decidable (∀ v w, ∀ a b : Fin t.words.length,
    t.wireName v a = t.wireName w b → a = b))

theorem Apart.distinctAt (h : t.Apart) (v : Version) : t.DistinctAt v :=
  h v v

/-- A name of another version names its word, or no word. -/
theorem ofWireName?_wireName_of_apart (h : t.Apart) (v w : Version) (word : t.Word) :
    t.ofWireName? w (t.wireName v word) =
      if t.wireName v word = t.wireName w word then some word else none := by
  split
  case isTrue hname => rw [hname, ofWireName?_wireName (h.distinctAt w)]
  case isFalse hname =>
    cases hfind : t.ofWireName? w (t.wireName v word) with
    | none => rfl
    | some other =>
      have hother := wireName_of_ofWireName? hfind
      obtain rfl := h w v other word hother
      exact absurd hother.symm hname

end Vocabulary

/-! ## Values of data -/

namespace WireType

variable {t : WireType}

/-- The words have names of their own across the versions; data of any other type have the same
values at every version. -/
def Apart : WireType → Prop
  | .word table => table.Apart
  | t => t.isSteady = true

instance decApart : (t : WireType) → Decidable t.Apart
  | .word table => inferInstanceAs (Decidable table.Apart)
  | .bool | .int64 | .int32 | .uint32 | .float | .text | .record .. | .list _ =>
    inferInstanceAs (Decidable (_ = true))

/-- A value of another version holds its datum if the datum has this value here too, and otherwise
no datum. -/
theorem decode_encode_of_apart (happart : t.Apart) (hlawful : t.Lawful) (v w : Version)
    {x : t.Carrier} (hx : t.IsFinite x) :
    t.decode w (t.encode v x) = if t.encode v x = t.encode w x then some x else none := by
  by_cases hsteady : t.isSteady = true
  · have hvalue := t.encode_eq_of_isSteady v w x hsteady
    rw [if_pos hvalue, hvalue, decode_encode_of_isFinite (hlawful w) hx]
  · cases t with
    | word table =>
      have hvalue : (Value.text (table.wireName v x) = .text (table.wireName w x)) =
          (table.wireName v x = table.wireName w x) := by
        rw [Value.text.injEq]
      exact (Vocabulary.ofWireName?_wireName_of_apart happart v w x).trans
        (if_congr (iff_of_eq hvalue.symm) rfl rfl)
    | _ => exact absurd happart hsteady

end WireType

/-! ## Keys of fields -/

namespace Registry

variable {r : Registry}

/-- A key that two fields have, at one version or at two, is a key of one field. -/
def Apart (r : Registry) : Prop :=
  ∀ v w, ∀ e ∈ r.entries, ∀ d ∈ r.entries, e.key v = d.key w → e.id = d.id

instance (r : Registry) : Decidable r.Apart :=
  inferInstanceAs (Decidable (∀ v w, ∀ e ∈ r.entries, ∀ d ∈ r.entries,
    e.key v = d.key w → e.id = d.id))

end Registry

namespace Container

variable {r : Registry} {c : Container r} {e : Entry} {a : Assignment r}
  {assignments : List (Assignment r)}

/-! ## What a run of assignments stores -/

/-- Finite parameters that hold the fields that can be read, each as the value of its datum, and
nothing else. -/
structure Filled (c : Container r) : Prop where
  isFinite : c.params.IsFinite
  readable : c.Readable
  canonical : ∀ e ∈ r.entries,
    c.params.get? (e.key c.version) = (c.get e.field).map (e.type.encode c.version)

theorem filled_empty (hr : r.Valid) (v : Version) : (empty r v).Filled where
  isFinite := Params.isFinite_empty
  readable := .empty r v
  canonical e he := by
    rw [get_field hr he]
    rfl

namespace Filled

theorem assign (hr : r.Valid) (hc : c.Filled) (ha : a.IsFinite)
    (hlawful : a.entry.type.LawfulAt c.version) : (c.assign a).Filled where
  isFinite := isFinite_assign hr hc.isFinite a
  readable := hc.readable.assign hr ha hlawful
  canonical e he := by
    rw [get?_assign hr ha, version_assign]
    by_cases hid : a.entry.id = e.id
    · obtain rfl := hr.eq_of_id_eq a.registered he hid
      rw [if_pos rfl, get_assign_self hr ha hlawful]
      rfl
    · have hkey : a.entry.key c.version ≠ e.key c.version := fun hkey =>
        hid (congrArg (fun e => e.id) (hr.eq_of_key_eq a.registered he hkey))
      rw [if_neg hkey, get_assign_of_ne hr he hid]
      exact hc.canonical e he

theorem foldl_assign (hr : r.Valid) (hlawful : ∀ e ∈ r.entries, e.type.Lawful)
    (hc : c.Filled) (hfinite : ∀ a ∈ assignments, a.IsFinite) :
    (assignments.foldl Container.assign c).Filled := by
  induction assignments generalizing c with
  | nil => exact hc
  | cons a rest ih =>
    obtain ⟨ha, hrest⟩ := List.forall_mem_cons.1 hfinite
    exact ih (hc.assign hr ha (hlawful a.entry a.registered c.version)) hrest

theorem isFinite_of_get (hr : r.Valid) (hc : c.Filled) (he : e ∈ r.entries) {x : e.type.Carrier}
    (hx : c.get e.field = some x) : e.type.IsFinite x := by
  rw [get_field hr he] at hx
  obtain ⟨raw, hraw, hdecode⟩ := Option.bind_eq_some_iff.1 hx
  exact e.type.isFinite_decode c.version (hc.isFinite.get? hraw) hdecode

/-- Under a key that a field has at another version only, nothing is stored. -/
theorem get?_key_of_ne (hr : r.Valid) (hc : c.Filled) (happart : r.Apart) (he : e ∈ r.entries)
    (hkey : e.key c.version ≠ e.key w) : c.params.get? (e.key w) = none := by
  by_contra h
  obtain ⟨d, hd, -, hown⟩ := hc.readable (e.key w) ((Params.mem_keys_iff _ _).2 h)
  obtain rfl := hr.eq_of_id_eq he hd (happart w c.version e he d hd hown)
  exact hkey hown.symm

end Filled

/-! ## The view of another version -/

/-- The same parameters, taken for those of another version. -/
def viewedAt (c : Container r) (w : Version) : Container r :=
  ⟨w, c.params⟩

/-- A field that has its key and its value at both versions reads as before, any other field as
nothing. -/
theorem get_viewedAt (hr : r.Valid) (hkeys : r.Apart) (hc : c.Filled) (he : e ∈ r.entries)
    (htype : e.type.Apart) (hlawful : e.type.Lawful) (w : Version) :
    (c.viewedAt w).get e.field =
      if e.key c.version = e.key w then
        (c.get e.field).filter fun x => e.type.encode c.version x = e.type.encode w x
      else none := by
  rw [get_field hr he]
  change (c.params.get? (e.key w)).bind (e.type.decode w) = _
  split
  case isTrue hkey =>
    rw [← hkey, hc.canonical e he]
    cases hget : c.get e.field with
    | none => rfl
    | some x =>
      have hx := hc.isFinite_of_get hr he hget
      have hread := WireType.decode_encode_of_apart htype hlawful c.version w hx
      simpa [Option.filter_some] using hread
  case isFalse hkey => rw [hc.get?_key_of_ne hr hkeys he hkey, Option.bind_none]

/-- What a field reads as is kept or lost, never replaced; it is lost exactly if the field has
another key, or the datum another value, at the other version. -/
theorem get_viewedAt_eq_or (hr : r.Valid) (hkeys : r.Apart) (hc : c.Filled) (he : e ∈ r.entries)
    (htype : e.type.Apart) (hlawful : e.type.Lawful) (w : Version) :
    (∀ x, (c.viewedAt w).get e.field = some x → c.get e.field = some x) ∧
      ∀ x, c.get e.field = some x → ((c.viewedAt w).get e.field = none ↔
        e.key c.version ≠ e.key w ∨ e.type.encode c.version x ≠ e.type.encode w x) := by
  rw [get_viewedAt hr hkeys hc he htype hlawful]
  refine ⟨fun x hx => ?_, fun x hx => ?_⟩
  · split at hx
    case isTrue => exact (Option.filter_eq_some_iff.1 hx).1
    case isFalse => cases hx
  · rw [hx]
    by_cases hkey : e.key c.version = e.key w <;> simp [hkey, Option.filter_some]

end Container

end HeadUnit
