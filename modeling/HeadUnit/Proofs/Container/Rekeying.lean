import HeadUnit.Proofs.Container.Conversion
import HeadUnit.Proofs.Params.Built

/-!
# What a conversion stores

A conversion is a map of stored members to stored members: a readable field moves to the key that
it has at the new version, and a key that no field had stays where no field moves. At the old
version and at the new one a key stands for one field at most, so the members do not meet on their
way, whatever the order of their visits, and no member is made of nothing.

## Main definitions

* `Container.Moves` — a field's value moves to a key.

## Main statements

* `Container.size_toVersion_le` — a conversion stores no more keys than it finds.
* `Container.toVersion_eq_of_perm` — the order of the members does not matter.
* `Container.get?_toVersion_eq_some_iff` — the values under all keys after a conversion.
-/

namespace HeadUnit

theorem Params.size_set_le (p : Params) (key : String) (value : Value) :
    (p.set key value).size ≤ p.size + 1 := by
  unfold Params.size Params.set Value.put
  split
  · exact Nat.le_succ_of_le (Members.length_erase_le key p.members)
  · exact Members.length_insert_le key value p.members

namespace Container

variable {r : Registry} {c : Container r} {w : Version} {key : String} {x : Value}

/-- A field has `key` at `w`, and its stored value, as read at the container's version, is written
as `x` there. -/
def Moves (c : Container r) (w : Version) (key : String) (x : Value) : Prop :=
  ∃ e ∈ r.entries, e.key w = key ∧
    ∃ raw, c.params.get? (e.key c.version) = some raw ∧ e.transcode raw c.version w = some x

theorem converted?_eq_some_iff (hr : r.Valid) :
    c.converted? w key = some x ↔ c.Moves w key x := by
  constructor
  · intro h
    obtain ⟨e, hfind, h⟩ := Option.bind_eq_some_iff.1 h
    obtain ⟨raw, hraw, htranscode⟩ := Option.bind_eq_some_iff.1 h
    obtain ⟨he, hkey⟩ := hr.entryForKey?_eq_some_iff.1 hfind
    exact ⟨e, he, hkey, raw, hraw, htranscode⟩
  · rintro ⟨e, he, rfl, raw, hraw, htranscode⟩
    rw [converted?_key hr he, hraw]
    exact htranscode

theorem carried?_eq_some_iff : c.carried? key = some x ↔
    (∀ e ∈ r.entries, e.key c.version ≠ key) ∧ c.params.get? key = some x := by
  rw [← isRegistered_eq_false_iff, carried?]
  cases c.isRegistered key <;> simp

/-! ## Sizes -/

theorem size_convertMember_le (p : Params) (m : String × Value) :
    (c.convertMember w p m).size ≤ p.size + if c.isRegistered m.1 then 1 else 0 := by
  unfold convertMember isRegistered
  cases r.entryForKey? m.1 c.version with
  | none => exact Nat.le_refl _
  | some e =>
    dsimp only
    split
    case h_1 value _ => exact p.size_set_le (e.key w) value
    case h_2 => exact Nat.le_succ _

theorem size_foldl_convertMember_le (ms : Members Value) (p : Params) :
    (ms.foldl (c.convertMember w) p).size ≤ p.size + ms.countP fun m => c.isRegistered m.1 := by
  induction ms generalizing p with
  | nil => exact Nat.le_refl _
  | cons m rest ih =>
    have hstep := size_convertMember_le (c := c) (w := w) p m
    have hrest := ih (c.convertMember w p m)
    rw [List.foldl_cons, List.countP_cons]
    omega

theorem size_foldl_carryMember_le (ms : Members Value) (p : Params) :
    (ms.foldl carryMember p).size ≤ p.size + ms.length := by
  induction ms generalizing p with
  | nil => exact Nat.le_refl _
  | cons m rest ih =>
    have hstep : (carryMember p m).size ≤ p.size + 1 := by
      unfold carryMember
      split
      · exact Nat.le_succ _
      · exact p.size_set_le m.1 m.2
    have hrest := ih (carryMember p m)
    rw [List.foldl_cons, List.length_cons]
    omega

/-- A conversion stores no more keys than it finds: a registered member is put once at most, and
so is each of the others. -/
theorem size_toVersion_le (c : Container r) (w : Version) :
    (c.toVersion w).params.size ≤ c.params.size := by
  have hregistered := size_foldl_convertMember_le (c := c) (w := w) c.params.members .empty
  have hothers := size_foldl_carryMember_le
    (c.params.members.filter fun m => !c.isRegistered m.1)
    (c.params.members.foldl (c.convertMember w) .empty)
  have hsplit : c.params.members.length = c.params.members.countP (fun m => c.isRegistered m.1) +
      (c.params.members.filter fun m => !c.isRegistered m.1).length := by
    simpa [List.countP_eq_length_filter] using
      List.length_eq_countP_add_countP (fun m : String × Value => c.isRegistered m.1)
  have hempty : Params.empty.size = 0 := rfl
  change (List.foldl carryMember _ _).size ≤ c.params.members.length
  omega

/-! ## The order of the members -/

/-- The members may be visited in any order: no two of them have the same key, and no two fields
move to the same key. -/
theorem toVersion_eq_of_perm (hr : r.Valid) (hc : c.params.WellFormed) {visited : Members Value}
    (h : visited.Perm c.params.members) (w : Version) :
    (⟨c.version, ⟨visited⟩⟩ : Container r).toVersion w = c.toVersion w := by
  have hmember : ∀ m ∈ visited, m.2.isAbsent = false ∧ m.2.WellFormed := fun m hm =>
    (Value.wellFormedMembers_iff _).1 hc.2 m (h.mem_iff.1 hm)
  have hkeys : (Members.keys visited).Nodup := (h.map Prod.fst).nodup_iff.2 hc.1.nodup_keys
  have hget : (⟨visited⟩ : Params).get? = c.params.get? :=
    funext (Members.get?_eq_of_perm h hc.1.nodup_keys)
  have hparams : ((⟨c.version, ⟨visited⟩⟩ : Container r).toVersion w).params =
      (c.toVersion w).params := by
    refine Params.eq_of_get?_eq (wellFormed_toVersion_of_mem (fun m hm => (hmember m hm).2) w)
      (wellFormed_toVersion hc w) fun key => ?_
    have hvisited := get?_toVersion_of_nodup (c := ⟨c.version, ⟨visited⟩⟩) hr hkeys
      (fun m hm => (hmember m hm).1) w key
    rw [hvisited, get?_toVersion hr hc]
    unfold converted? carried? isRegistered
    rw [hget]
  exact congrArg (Container.mk w) hparams

/-! ## The stored values -/

/-- What is under a key after a conversion: the value that moves there; failing that, the value
that was there, if no field had the key; and nothing else. -/
theorem get?_toVersion_eq_some_iff (hr : r.validate = .ok ()) (hc : c.params.Built)
    (w : Version) :
    (c.toVersion w).version = w ∧
      (∀ key x, (c.toVersion w).params.get? key = some x ↔
        c.Moves w key x ∨
          (∀ y, ¬ c.Moves w key y) ∧ (∀ e ∈ r.entries, e.key c.version ≠ key) ∧
            c.params.get? key = some x) ∧
      (∀ visited : Members Value, visited.Perm c.params.members →
        (⟨c.version, ⟨visited⟩⟩ : Container r).toVersion w = c.toVersion w) ∧
      (c.toVersion w).params.size ≤ c.params.size := by
  have hvalid := (Registry.validate_eq_ok_iff r).1 hr
  have hwell := hc.wellFormed
  refine ⟨rfl, fun key x => ?_, fun visited h => toVersion_eq_of_perm hvalid hwell h w,
    size_toVersion_le c w⟩
  have hmoves : (∀ y, ¬ c.Moves w key y) ↔ c.converted? w key = none := by
    simp only [← converted?_eq_some_iff hvalid, Option.eq_none_iff_forall_ne_some, ne_eq]
  rw [get?_toVersion hvalid hwell, Option.or_eq_some_iff, converted?_eq_some_iff hvalid, hmoves,
    carried?_eq_some_iff]

/-- Two fields exchange their keys with the second version, next to a key that is no field's. -/
theorem get?_toVersion_eq_some_iff_exchange :
    let left : Entry := ⟨⟨"left", ⟨"a", [⟨.since 2, "b"⟩]⟩⟩, .int64⟩
    let right : Entry := ⟨⟨"right", ⟨"b", [⟨.since 2, "a"⟩]⟩⟩, .text⟩
    let r : Registry := ⟨"exchange", [left, right]⟩
    let p : Params := .ofJson (.object
      [("a", .integer 1 (by decide) (by decide)), ("b", .string "x"), ("c", .bool true)])
    r.validate = .ok () ∧ p.Built ∧
      ((⟨.v1, p⟩ : Container r).toVersion .v2).params.get? "a" = some (.text "x") := by
  intro left right r p
  have hr : r.validate = .ok () := by decide
  have hp : p.Built := .ofJson _
  obtain ⟨-, hget, -⟩ := get?_toVersion_eq_some_iff (c := (⟨.v1, p⟩ : Container r)) hr hp .v2
  refine ⟨hr, hp, (hget "a" _).2 (.inl ⟨right, by simp [r], by decide, .text "x", ?_, ?_⟩)⟩
  · rfl
  · rfl

end Container

end HeadUnit
