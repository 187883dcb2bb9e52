import HeadUnit.Registry
import Mathlib.Data.List.Nodup

/-!
# Valid registries

Validation accepts exactly the registries whose fields have identifiers of their own, valid key
tables, and at every version keys of their own. In such a registry an identifier, and at any one
version a key, stands for one field.

## Main definitions

* `Registry.Valid` — what validation accepts.

## Main statements

* `Registry.validate_eq_ok_iff` — validation accepts exactly the valid registries.
* `Registry.Valid.entry?_eq_some_iff`, `Registry.Valid.entryForKey?_eq_some_iff` — look-up finds
  exactly the entries with the identifier, or with the key.
-/

namespace HeadUnit

namespace Registry

variable {r : Registry}

/-- Identifiers are distinct, key tables valid, and keys distinct at every version. -/
structure Valid (r : Registry) : Prop where
  ids : (r.entries.map fun e => e.id).Nodup
  tables : ∀ e ∈ r.entries, e.keys.validate = .ok ()
  keys : ∀ v, (r.entries.map (·.key v)).Nodup

/-! ## Validation -/

/-- A list of names is distinct and apart from those seen if its head is new and its tail is
distinct and apart from those seen with the head. -/
theorem distinct_cons_iff (name : Entry → String) (seen : List String) (e : Entry)
    (rest : List Entry) :
    (∀ d ∈ e :: rest, name d ∉ seen) ∧ ((e :: rest).map name).Nodup ↔
      name e ∉ seen ∧ (∀ d ∈ rest, name d ∉ name e :: seen) ∧ (rest.map name).Nodup := by
  simp only [List.map_cons, List.nodup_cons, List.mem_map, List.mem_cons, not_or, not_exists,
    not_and]
  grind

theorem checkKeys_eq_ok_iff (name : String) (v : Version) (seen : List String)
    (entries : List Entry) : checkKeys name v seen entries = .ok () ↔
      (∀ e ∈ entries, e.key v ∉ seen) ∧ (entries.map (·.key v)).Nodup := by
  induction entries generalizing seen with
  | nil => simp [checkKeys]
  | cons e rest ih =>
    rw [distinct_cons_iff (·.key v), ← ih, checkKeys]
    by_cases hseen : e.key v ∈ seen <;> simp [hseen]

theorem checkFields_eq_ok_iff (name : String) (seen : List String) (entries : List Entry) :
    checkFields name seen entries = .ok () ↔
      ((∀ e ∈ entries, e.id ∉ seen) ∧ (entries.map fun e => e.id).Nodup) ∧
        ∀ e ∈ entries, e.keys.validate = .ok () := by
  induction entries generalizing seen with
  | nil => simp [checkFields]
  | cons e rest ih =>
    rw [distinct_cons_iff fun e => e.id, List.forall_mem_cons, checkFields]
    by_cases hseen : e.id ∈ seen
    · simp [hseen]
    · cases htable : e.keys.validate with
      | error _ => simp [hseen, bind, Except.bind]
      | ok _ => simpa [hseen, bind, Except.bind] using ih (e.id :: seen)

theorem validate_eq_ok_iff (r : Registry) : r.validate = .ok () ↔ r.Valid := by
  have hkeys : forM Version.all (fun v => checkKeys r.name v [] r.entries) = .ok () ↔
      ∀ v, (r.entries.map (·.key v)).Nodup := by
    simp only [Except.forM_eq_ok_iff, checkKeys_eq_ok_iff, Version.mem_all, List.not_mem_nil,
      not_false_eq_true, implies_true, true_and, forall_const]
  have hfields : checkFields r.name [] r.entries = .ok () ↔
      (r.entries.map fun e => e.id).Nodup ∧ ∀ e ∈ r.entries, e.keys.validate = .ok () := by
    simp only [checkFields_eq_ok_iff, List.not_mem_nil, not_false_eq_true, implies_true, true_and]
  unfold validate
  cases h : checkFields r.name [] r.entries with
  | error e =>
    simp only [bind, Except.bind, reduceCtorEq, false_iff]
    intro hv
    rw [hfields.2 ⟨hv.ids, hv.tables⟩] at h
    cases h
  | ok _ =>
    obtain ⟨hids, htables⟩ := hfields.1 h
    exact hkeys.trans ⟨fun hk => ⟨hids, htables, hk⟩, Valid.keys⟩

/-! ## Look-up -/

theorem entry?_eq_none_iff (id : String) :
    r.entry? id = none ↔ ∀ e ∈ r.entries, e.id ≠ id := by
  unfold entry?
  simp

theorem entryForKey?_eq_none_iff (key : String) (v : Version) :
    r.entryForKey? key v = none ↔ ∀ e ∈ r.entries, e.key v ≠ key := by
  simp [entryForKey?]

/-- Where no name comes twice, a search by name finds exactly the entry with the name. -/
theorem find?_eq_some_iff {entries : List Entry} {name : Entry → String} {e : Entry}
    {wanted : String} (h : (entries.map name).Nodup) :
    entries.find? (name · == wanted) = some e ↔ e ∈ entries ∧ name e = wanted := by
  constructor
  · intro hfind
    exact ⟨List.mem_of_find?_eq_some hfind, by simpa using List.find?_some hfind⟩
  · rintro ⟨he, rfl⟩
    cases hfind : entries.find? (name · == name e) with
    | none => simpa using List.find?_eq_none.1 hfind e he
    | some d =>
      have hname : name d = name e := by simpa using List.find?_some hfind
      rw [List.inj_on_of_nodup_map h (List.mem_of_find?_eq_some hfind) he hname]

namespace Valid

variable {e e' : Entry}

/-- An identifier stands for one entry. -/
theorem eq_of_id_eq (h : r.Valid) (he : e ∈ r.entries) (he' : e' ∈ r.entries)
    (hid : e.id = e'.id) : e = e' :=
  List.inj_on_of_nodup_map h.ids he he' hid

/-- At any one version, a key stands for one entry. -/
theorem eq_of_key_eq (h : r.Valid) {v : Version} (he : e ∈ r.entries) (he' : e' ∈ r.entries)
    (hkey : e.key v = e'.key v) : e = e' :=
  List.inj_on_of_nodup_map (h.keys v) he he' hkey

theorem entry?_eq_some_iff (h : r.Valid) {id : String} :
    r.entry? id = some e ↔ e ∈ r.entries ∧ e.id = id :=
  find?_eq_some_iff h.ids

theorem entryForKey?_eq_some_iff (h : r.Valid) {key : String} {v : Version} :
    r.entryForKey? key v = some e ↔ e ∈ r.entries ∧ e.key v = key :=
  find?_eq_some_iff (h.keys v)

end Valid

end Registry

end HeadUnit
