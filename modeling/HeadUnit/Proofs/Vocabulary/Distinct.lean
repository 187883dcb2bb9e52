import HeadUnit.Vocabulary
import Mathlib.Data.List.Nodup

/-!
# Vocabularies with distinct names

A name stands for the first word that has it. Where no two words share a name, which is what
validation asks for, a word's name stands for the word.

## Main definitions

* `Vocabulary.DistinctAt` — no two words share a name at a version.

## Main statements

* `Vocabulary.ofWireName?_eq_some_iff`, `Vocabulary.ofWireName?_eq_none_iff` — what a name stands
  for.
* `Vocabulary.ofWireName?_wireName` — the word of a word's name.
* `Vocabulary.validateAt_eq_ok_iff` — validation accepts exactly distinct names.
-/

namespace HeadUnit.Vocabulary

variable {t : Vocabulary} {v : Version}

/-- No two words share a name at `v`. -/
def DistinctAt (t : Vocabulary) (v : Version) : Prop :=
  ∀ a b : t.Word, t.wireName v a = t.wireName v b → a = b

instance (t : Vocabulary) (v : Version) : Decidable (t.DistinctAt v) :=
  inferInstanceAs (Decidable (∀ a b : Fin t.words.length, t.wireName v a = t.wireName v b → a = b))

@[simp] theorem mem_all (w : t.Word) : w ∈ t.all :=
  List.mem_finRange w

/-! ## The word of a name -/

theorem wireName_of_ofWireName? {s : String} {w : t.Word} (h : t.ofWireName? v s = some w) :
    t.wireName v w = s := by
  simpa using List.find?_some h

/-- Every name names a word, which then has this name. -/
theorem exists_ofWireName?_wireName (v : Version) (w : t.Word) :
    ∃ other, t.ofWireName? v (t.wireName v w) = some other ∧
      t.wireName v other = t.wireName v w := by
  cases hfind : t.ofWireName? v (t.wireName v w) with
  | none =>
    have hne := List.find?_eq_none.1 hfind w (mem_all w)
    simp at hne
  | some other => exact ⟨other, rfl, wireName_of_ofWireName? hfind⟩

theorem ofWireName?_wireName (h : t.DistinctAt v) (w : t.Word) :
    t.ofWireName? v (t.wireName v w) = some w := by
  obtain ⟨other, hfind, hname⟩ := exists_ofWireName?_wireName v w
  rw [hfind, h other w hname]

/-- A name stands for the first word that has it. -/
theorem ofWireName?_eq_some_iff {s : String} {w : t.Word} : t.ofWireName? v s = some w ↔
    t.wireName v w = s ∧ ∀ earlier : t.Word, earlier < w → t.wireName v earlier ≠ s := by
  rw [ofWireName?, List.find?_eq_some_iff_getElem, beq_iff_eq]
  refine and_congr_right fun _ => ⟨?_, fun h => ?_⟩
  · rintro ⟨i, hi, rfl, hbefore⟩ earlier hlt
    have hplace : earlier.val < i := by simpa [all] using Fin.lt_def.1 hlt
    simpa [all] using hbefore earlier hplace
  · refine ⟨w, by simp [all], by simp [all], fun j hj => ?_⟩
    simpa [all] using h ⟨j, by omega⟩ (Fin.lt_def.2 hj)

theorem ofWireName?_eq_none_iff {s : String} :
    t.ofWireName? v s = none ↔ ∀ w, t.wireName v w ≠ s := by
  simp [ofWireName?]

/-- Every word is found by its name exactly if the names are distinct. -/
theorem forall_ofWireName?_wireName_iff :
    (∀ w, t.ofWireName? v (t.wireName v w) = some w) ↔ t.DistinctAt v := by
  refine ⟨fun h a b hab => ?_, ofWireName?_wireName⟩
  have hfound := h b
  rw [← hab, h a] at hfound
  exact Option.some.inj hfound

/-! ## Validation -/

theorem ambiguous?_eq_none_iff (ws : List t.Word) :
    t.ambiguous? v ws = none ↔ (ws.map (t.wireName v)).Nodup := by
  induction ws with
  | nil => simp [ambiguous?]
  | cons w rest ih =>
    have hany : rest.any (t.wireName v · == t.wireName v w) = true ↔
        t.wireName v w ∈ rest.map (t.wireName v) := by simp
    rw [ambiguous?, List.map_cons, List.nodup_cons, ← ih]
    split
    case isTrue h => exact iff_of_false (by simp) fun hnodup => hnodup.1 (hany.1 h)
    case isFalse h => exact (and_iff_right (mt hany.2 h)).symm

theorem validateAt_eq_ok_iff : t.validateAt v = .ok () ↔ t.DistinctAt v := by
  have hnone : t.validateAt v = .ok () ↔ t.ambiguous? v t.all = none := by
    unfold validateAt
    cases t.ambiguous? v t.all <;> simp
  rw [hnone, ambiguous?_eq_none_iff, all, List.nodup_map_iff_inj_on (List.nodup_finRange _)]
  exact ⟨fun h a b => h a (mem_all a) b (mem_all b), fun h a _ b _ => h a b⟩

end HeadUnit.Vocabulary
