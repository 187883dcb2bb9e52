import HeadUnit.Proofs.Container.Writes

/-!
# Assignments

An assignment writes a registered field through the field's own handle, so it is never refused.
Of finite data every field reads back what was assigned to it last, and a container that was empty
at first stores no more than the fields that it reads.

## Main definitions

* `Assignment` — a write of a registered field.
* `Container.assign`, `Container.assignAll` — one assignment, and a run of them.
* `Container.Readable` — every stored member is a field that can be read.

## Main statements

* `Container.assignAll_eq_ok` — no assignment is refused.
* `Container.get_foldl_assign_last`, `Container.get_foldl_assign_of_ne` — what fields read as
  after a run.
* `Container.Readable.foldl_assign` — a run stores nothing that cannot be read.
-/

namespace HeadUnit

variable {r : Registry} {v w : Version} {e : Entry}

/-- A datum, or none, for a registered field, through the field's own handle. -/
structure Assignment (r : Registry) where
  entry : Entry
  registered : entry ∈ r.entries
  datum : Option entry.type.Carrier

namespace Assignment

variable {a : Assignment r}

def write (a : Assignment r) : Write :=
  ⟨a.entry.type, a.entry.field, a.datum⟩

/-- No float of the datum is infinite or a NaN. -/
def IsFinite (a : Assignment r) : Prop :=
  ∀ x, a.datum = some x → a.entry.type.IsFinite x

/-- The value of the datum at `v`. -/
def value? (a : Assignment r) (v : Version) : Option Value :=
  a.datum.map (a.entry.type.encode v)

theorem accepts (a : Assignment r) : r.Accepts a.write.field :=
  ⟨a.entry, a.registered, rfl, rfl⟩

/-- The value of a finite datum is stored as it is. -/
theorem stored?_write (ha : a.IsFinite) (v : Version) : a.write.stored? v = a.value? v := by
  rw [Write.stored?_eq]
  exact WireType.filter_isAbsent_encode v a.datum ha

theorem bind_transcode_value? (ha : a.IsFinite) (hlawful : a.entry.type.LawfulAt v) :
    ((a.value? v).bind fun raw => a.entry.transcode raw v w) = a.value? w := by
  unfold value?
  cases hdatum : a.datum with
  | none => rfl
  | some x =>
    have hback := WireType.decode_encode_of_isFinite hlawful (ha x hdatum)
    simp [Entry.transcode, WireType.transcode, hback]

theorem bind_decode_value? (ha : a.IsFinite) (hlawful : a.entry.type.LawfulAt v) :
    (a.value? v).bind (a.entry.type.decode v) = a.datum := by
  unfold value?
  cases hdatum : a.datum with
  | none => rfl
  | some x => exact WireType.decode_encode_of_isFinite hlawful (ha x hdatum)

end Assignment

namespace Container

variable {c : Container r} {a : Assignment r}

/-- The writes one after another, until one is refused. -/
def assignAll (c : Container r) (assignments : List (Assignment r)) :
    Except Error (Container r) :=
  assignments.foldlM (fun c a => c.set a.entry.field a.datum) c

/-! ## Writes of registered fields -/

/-- The container with the datum of `a`. -/
def assign (c : Container r) (a : Assignment r) : Container r :=
  c.attempt a.write

theorem set_eq_ok_assign (hr : r.Valid) (c : Container r) (a : Assignment r) :
    c.set a.entry.field a.datum = .ok (c.assign a) := by
  have haccepted : ∃ d, c.set a.write.field a.write.datum = .ok d := (set_isOk_iff hr).2 a.accepts
  obtain ⟨d, hd⟩ := haccepted
  have hassign : c.assign a = d := by
    unfold assign attempt
    rw [hd]
  rw [hassign]
  exact hd

theorem assignAll_eq_ok (hr : r.Valid) (c : Container r) (assignments : List (Assignment r)) :
    c.assignAll assignments = .ok (assignments.foldl assign c) := by
  induction assignments generalizing c with
  | nil => rfl
  | cons a rest ih =>
    unfold assignAll at ih ⊢
    rw [List.foldlM_cons, set_eq_ok_assign hr c a]
    exact ih (c.assign a)

@[simp] theorem version_assign (c : Container r) (a : Assignment r) :
    (c.assign a).version = c.version :=
  version_attempt c a.write

theorem get?_assign (hr : r.Valid) (ha : a.IsFinite) (key : String) :
    (c.assign a).params.get? key =
      if a.entry.key c.version = key then a.value? c.version else c.params.get? key := by
  rw [assign, get?_attempt hr a.registered rfl rfl, Assignment.stored?_write ha]

theorem wellFormed_assign (hr : r.Valid) (hc : c.params.WellFormed) (a : Assignment r) :
    (c.assign a).params.WellFormed := by
  rw [assign, attempt_of_registered hr a.registered rfl rfl]
  exact hc.write _ _ _

theorem isFinite_assign (hr : r.Valid) (hc : c.params.IsFinite) (a : Assignment r) :
    (c.assign a).params.IsFinite := by
  rw [assign, attempt_of_registered hr a.registered rfl rfl]
  exact hc.write _ _ _

/-! ## Reading after a run -/

theorem get_assign_self (hr : r.Valid) (ha : a.IsFinite)
    (hlawful : a.entry.type.LawfulAt c.version) : (c.assign a).get a.entry.field = a.datum := by
  rw [get_field hr a.registered, version_assign, Params.read, get?_assign hr ha,
    if_pos rfl]
  exact Assignment.bind_decode_value? ha hlawful

theorem get_assign_of_ne (hr : r.Valid) (he : e ∈ r.entries) (h : a.entry.id ≠ e.id) :
    (c.assign a).get e.field = c.get e.field := by
  have haccepts : r.Accepts e.field := ⟨e, he, rfl, rfl⟩
  have hraw : (c.assign a).getRaw e.id = c.getRaw e.id := getRaw_attempt_of_ne hr he fun _ => h
  rw [get_eq_getRaw hr haccepts, get_eq_getRaw hr haccepts, version_assign]
  exact congrArg (Option.bind · _) hraw

@[simp] theorem version_foldl_assign (c : Container r) (assignments : List (Assignment r)) :
    (assignments.foldl assign c).version = c.version := by
  induction assignments generalizing c with
  | nil => rfl
  | cons a rest ih => exact (ih (c.assign a)).trans (version_assign c a)

/-- A field that nothing is assigned to reads as before. -/
theorem get_foldl_assign_of_ne (hr : r.Valid) (he : e ∈ r.entries) (c : Container r)
    {assignments : List (Assignment r)} (h : ∀ a ∈ assignments, a.entry.id ≠ e.id) :
    (assignments.foldl assign c).get e.field = c.get e.field := by
  induction assignments generalizing c with
  | nil => rfl
  | cons a rest ih =>
    obtain ⟨ha, hrest⟩ := List.forall_mem_cons.1 h
    exact (ih (c.assign a) hrest).trans (get_assign_of_ne hr he ha)

/-- A field reads as what was assigned to it last. -/
theorem get_foldl_assign_last (hr : r.Valid) (c : Container r) {before after : List (Assignment r)}
    (ha : a.IsFinite) (hlawful : a.entry.type.LawfulAt c.version)
    (hafter : ∀ b ∈ after, b.entry.id ≠ a.entry.id) :
    ((before ++ a :: after).foldl assign c).get a.entry.field = a.datum := by
  rw [List.foldl_append, List.foldl_cons, get_foldl_assign_of_ne hr a.registered _ hafter]
  exact get_assign_self hr ha (by rwa [version_foldl_assign])

/-! ## What is stored -/

/-- Every stored member is a field that can be read. -/
def Readable (c : Container r) : Prop :=
  ∀ key ∈ c.params.keys, ∃ e ∈ r.entries, c.get e.field ≠ none ∧ key = e.key c.version

namespace Readable

theorem empty (r : Registry) (v : Version) : (empty r v).Readable :=
  fun _ h => nomatch h

theorem assign (hr : r.Valid) (hc : c.Readable) (ha : a.IsFinite)
    (hlawful : a.entry.type.LawfulAt c.version) : (c.assign a).Readable := by
  intro key hkey
  rw [Params.mem_keys_iff, get?_assign hr ha] at hkey
  rw [version_assign]
  by_cases hown : a.entry.key c.version = key
  · refine ⟨a.entry, a.registered, ?_, hown.symm⟩
    rw [if_pos hown] at hkey
    rw [get_assign_self hr ha hlawful]
    intro hnone
    apply hkey
    rw [Assignment.value?, hnone]
    rfl
  · rw [if_neg hown] at hkey
    obtain ⟨e, he, hget, rfl⟩ := hc key ((Params.mem_keys_iff _ key).2 hkey)
    have hid : a.entry.id ≠ e.id := fun h => hown (hr.eq_of_id_eq a.registered he h ▸ rfl)
    exact ⟨e, he, by rwa [get_assign_of_ne hr he hid], rfl⟩

theorem foldl_assign (hr : r.Valid) (hlawful : ∀ e ∈ r.entries, e.type.Lawful)
    (hc : c.Readable) {assignments : List (Assignment r)}
    (hfinite : ∀ a ∈ assignments, a.IsFinite) :
    (assignments.foldl Container.assign c).Readable := by
  induction assignments generalizing c with
  | nil => exact hc
  | cons a rest ih =>
    obtain ⟨ha, hrest⟩ := List.forall_mem_cons.1 hfinite
    exact ih (hc.assign hr ha (hlawful a.entry a.registered c.version)) hrest

end Readable

end Container

end HeadUnit
