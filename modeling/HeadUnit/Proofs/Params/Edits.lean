import HeadUnit.Field
import HeadUnit.Proofs.Params.Built
import HeadUnit.Proofs.Text.Utf8
import HeadUnit.Proofs.Value.Parts
import HeadUnit.Proofs.WireType.RoundTrip

/-!
# Runs of edits

Parameters are edited by setting and removing keys, and by writing data, lists and nested
parameters. Every edit puts one value under one key, or removes the key, so a run of them is a map
from keys to the values that were put last. Null and floats without a JSON form are never put,
neither here nor in a struct at any depth.

## Main definitions

* `Edit`, `Params.edit`, `Params.editAll` — an edit, its effect, and that of a run.
* `Edit.stored?` — what an edit leaves under its key.

## Main statements

* `Params.get?_edit`, `Params.Built.edit` — what one edit does, and what it keeps.
* `Params.editAll_nullFree` — what a run of edits leaves.
-/

namespace HeadUnit

/-- A change of parameters under one key. Lists come with a writer of the caller's for their
elements. -/
inductive Edit where
  | set (key : String) (value : Value)
  | remove (key : String)
  | write (t : WireType) (key : String) (datum : Option t.Carrier) (v : Version)
  | writeList {α : Type} (key : String) (items : Option (List α)) (element : α → Value)
  | writeStruct (key : String) (nested : Option Params)

namespace Edit

def key : Edit → String
  | .set key _ | .remove key | .write _ key _ _ | .writeList key _ _ | .writeStruct key _ => key

/-- The value that is to be put under the key; without one the key is removed. -/
def value? : Edit → Option Value
  | .set _ value => some value
  | .remove _ => none
  | .write t _ datum v => datum.map (t.encode v)
  | .writeList _ items element => items.map fun items => .list (items.map element)
  | .writeStruct _ nested => nested.map Params.toValue

/-- What is left under the key: nothing for null and for a float without a JSON form. -/
def stored? (e : Edit) : Option Value :=
  match e.value? with
  | none | some .null => none
  | some (.float x) => if x.isFinite then some (.float x) else none
  | some value => some value

/-- The structs in the values of the caller are built by edits in turn. -/
def Built : Edit → Prop
  | .set _ value => value.Built
  | .remove _ | .write .. => True
  | .writeList _ items element => ∀ xs, items = some xs → ∀ x ∈ xs, (element x).Built
  | .writeStruct _ nested => ∀ p, nested = some p → p.Built

theorem Built.value {e : Edit} (h : e.Built) {value : Value} (hvalue : e.value? = some value) :
    value.Built := by
  cases e with
  | set key v =>
    cases hvalue
    exact h
  | remove key => cases hvalue
  | write t key datum v =>
    obtain ⟨x, -, rfl⟩ := Option.map_eq_some_iff.1 hvalue
    exact (t.wellFormed_encode v x).built
  | writeList key items element =>
    obtain ⟨xs, hxs, rfl⟩ := Option.map_eq_some_iff.1 hvalue
    exact .list (List.forall_mem_map.2 (h xs hxs))
  | writeStruct key nested =>
    obtain ⟨p, hp, rfl⟩ := Option.map_eq_some_iff.1 hvalue
    exact .struct (h p hp)

end Edit

namespace Params

variable {p : Params} {e : Edit} {edits : List Edit}

/-- The parameters after an edit. -/
def edit (p : Params) : Edit → Params
  | .set key value => p.set key value
  | .remove key => p.remove key
  | .write t key datum v => p.write t key datum v
  | .writeList key items element => p.writeList key items element
  | .writeStruct key nested => p.writeStruct key nested

/-- The parameters after edits one after another. -/
def editAll (p : Params) (edits : List Edit) : Params :=
  edits.foldl edit p

/-! ## One edit -/

/-- Every edit sets its value under its key, or removes the key. -/
theorem edit_eq (p : Params) (e : Edit) : p.edit e =
    match e.value? with
    | some value => p.set e.key value
    | none => p.remove e.key := by
  cases e with
  | set key value => rfl
  | remove key => rfl
  | write t key datum v => cases datum <;> rfl
  | writeList key items element => cases items <;> rfl
  | writeStruct key nested => cases nested <;> rfl

theorem get?_edit (p : Params) (e : Edit) (key : String) :
    (p.edit e).get? key = if e.key = key then e.stored? else p.get? key := by
  rw [edit_eq, Edit.stored?]
  cases e.value? with
  | none => exact get?_remove p e.key key
  | some value =>
    rw [get?_set]
    cases value with
    | float x => cases hfinite : x.isFinite <;> simp [Value.isAbsent, hfinite]
    | _ => simp [Value.isAbsent]

theorem Built.edit (hp : p.Built) (he : e.Built) : (p.edit e).Built := by
  rw [edit_eq]
  cases hvalue : e.value? with
  | none => exact .remove e.key hp
  | some value => exact .set e.key hp (he.value hvalue)

/-! ## Runs of edits -/

theorem Built.editAll (hp : p.Built) (hedits : ∀ e ∈ edits, e.Built) : (p.editAll edits).Built := by
  induction edits generalizing p with
  | nil => exact hp
  | cons e rest ih =>
    obtain ⟨he, hrest⟩ := List.forall_mem_cons.1 hedits
    exact ih (hp.edit he) hrest

theorem editAll_append (p : Params) (before after : List Edit) :
    p.editAll (before ++ after) = (p.editAll before).editAll after :=
  List.foldl_append

theorem get?_editAll_of_ne {key : String} (h : ∀ e ∈ edits, e.key ≠ key) :
    (p.editAll edits).get? key = p.get? key := by
  induction edits generalizing p with
  | nil => rfl
  | cons e rest ih =>
    obtain ⟨he, hrest⟩ := List.forall_mem_cons.1 h
    exact (ih hrest).trans (by rw [get?_edit, if_neg he])

theorem get?_editAll_last {before after : List Edit} (h : ∀ later ∈ after, later.key ≠ e.key) :
    (p.editAll (before ++ e :: after)).get? e.key = e.stored? := by
  rw [editAll_append]
  change (((p.editAll before).edit e).editAll after).get? e.key = e.stored?
  rw [get?_editAll_of_ne h, get?_edit, if_pos rfl]

/-! ## What holds at every depth -/

/-- In every struct of parameters that were built by edits the keys ascend and no member is null
or a float without a JSON form. -/
theorem Built.part (hp : p.Built) {members : Members Value}
    (h : Value.HasPart (.struct members) p.toValue) :
    ((Members.keys members).map Text.utf8).Pairwise (· < ·) ∧
      ∀ m ∈ members, m.2 ≠ .null ∧ ∀ x, m.2 = .float x → x.isFinite = true := by
  have hpart : (Value.struct members).WellFormed := Value.WellFormed.part hp.wellFormed h
  refine ⟨hpart.1.utf8, fun m hm => ?_⟩
  have habsent := ((Value.wellFormedMembers_iff _).1 hpart.2 m hm).1
  constructor
  · intro hnull
    rw [hnull] at habsent
    cases habsent
  · intro x hx
    rw [hx] at habsent
    exact Bool.not_eq_false' .. ▸ habsent

/-- A run of edits leaves under each key what the last edit of the key stored, and each edit leaves
the other keys alone. The keys ascend by their bytes. No struct at any depth holds null or a float
without a JSON form, and no object of the encoded tree has a null member. -/
theorem editAll_nullFree (hp : p.Built) (hedits : ∀ e ∈ edits, e.Built) :
    let q := p.editAll edits
    q.Built ∧
      (∀ before e after, edits = before ++ e :: after → (∀ later ∈ after, later.key ≠ e.key) →
        q.get? e.key = e.stored?) ∧
      (∀ key, (∀ e ∈ edits, e.key ≠ key) → q.get? key = p.get? key) ∧
      (∀ (s : Params) (e : Edit) (key : String), e.key ≠ key →
        (s.edit e).get? key = s.get? key) ∧
      (q.keys.map Text.utf8).Pairwise (· < ·) ∧
      q.size = q.keys.length ∧ (∀ key, key ∈ q.keys ↔ q.get? key ≠ none) ∧
      (∀ members, Value.HasPart (.struct members) q.toValue →
        ((Members.keys members).map Text.utf8).Pairwise (· < ·) ∧
          ∀ m ∈ members, m.2 ≠ .null ∧ ∀ x, m.2 = .float x → x.isFinite = true) ∧
      ∀ members, Json.HasPart (.object members) q.toJson → ∀ m ∈ members, m.2.isNull = false := by
  intro q
  have hq : q.Built := hp.editAll hedits
  refine ⟨hq, ?_, fun key h => get?_editAll_of_ne h, ?_, hq.wellFormed.1.utf8,
    (List.length_map _).symm, mem_keys_iff q, fun members => hq.part,
    fun members => Value.isNull_of_hasPart_toJson q.toValue⟩
  · rintro before e after rfl hafter
    exact get?_editAll_last hafter
  · intro s e key hne
    rw [get?_edit, if_neg hne]

/-- Decoded parameters lose a key to a NaN and gain a list that holds one, next to a record. -/
theorem editAll_nullFree_lampRange :
    let p : Params := .ofJson (.object [("range", .bool true), ("vendor", .null)])
    let nan : Binary64 := ⟨0x7ff8000000000000⟩
    let edits : List Edit := [
      .write .float "range" (some nan) .v3,
      .writeList "readings" (some [nan, .zero]) Value.float,
      .writeStruct "lamp" (some (Params.empty.set "low" (.bool true))),
      .set "lamp" (.list [.struct [("high", .bool false)], .null])]
    p.Built ∧ (∀ e ∈ edits, e.Built) ∧ (p.editAll edits).get? "range" = none ∧
      (p.editAll edits).get? "readings" = some (.list [.float nan, .float .zero]) ∧
      (p.editAll edits).get? "lamp" =
        some (.list [.struct [("high", .bool false)], .null]) := by
  intro p nan edits
  have hlamp : Value.Built (.list [.struct [("high", .bool false)], .null]) :=
    Value.WellFormed.built ⟨⟨List.pairwise_singleton .., ⟨rfl, trivial⟩, trivial⟩, trivial, trivial⟩
  have hp : p.Built := .ofJson _
  have hedits : ∀ e ∈ edits, e.Built := by
    simp only [edits, List.forall_mem_cons, Edit.Built]
    refine ⟨trivial, ?_, ?_, hlamp, List.forall_mem_nil _⟩
    · exact fun xs _ x _ => .float x
    · rintro q ⟨⟩
      exact .set "low" .empty (.bool true)
  obtain ⟨-, hlast, -⟩ := editAll_nullFree hp hedits
  refine ⟨hp, hedits, ?_, ?_, ?_⟩
  · have hstored : (Edit.write .float "range" (some nan) .v3).stored? = none := by decide +kernel
    exact hstored ▸ hlast [] _ _ rfl (by simp [Edit.key])
  · exact hlast [_] _ _ rfl (by simp [Edit.key])
  · exact hlast [_, _, _] _ [] rfl (by simp)

end Params

end HeadUnit
