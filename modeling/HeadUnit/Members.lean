/-!
# Members in key order

JSON objects and parameter maps keep their members in a list of key and value pairs, strictly
ascending by key. Keys compare by code points, which is also the order of their UTF-8 bytes.

## Main definitions

* `Members.get?`, `Members.insert`, `Members.erase` — look-up, replacement and removal.
* `Members.Ascending` — the order that `insert` and `erase` keep.
-/

namespace HeadUnit

variable {α : Type}

/-- Members of an object: keys with their values. -/
abbrev Members (α : Type) := List (String × α)

namespace Members

/-- The value under `key`. -/
def get? (key : String) : Members α → Option α
  | [] => none
  | (k, v) :: rest => if k = key then some v else get? key rest

def contains (key : String) (ms : Members α) : Bool :=
  (get? key ms).isSome

def keys (ms : Members α) : List String :=
  ms.map Prod.fst

/-- Put `value` under `key` at the key's place in the order, in the place of what was there. -/
def insert (key : String) (value : α) : Members α → Members α
  | [] => [(key, value)]
  | (k, v) :: rest =>
    if key < k then (key, value) :: (k, v) :: rest
    else if key = k then (key, value) :: rest
    else (k, v) :: insert key value rest

/-- Remove whatever is under `key`. -/
def erase (key : String) (ms : Members α) : Members α :=
  ms.filter fun m => m.1 != key

/-- Keys strictly ascending, so no key comes twice. -/
def Ascending (ms : Members α) : Prop :=
  (keys ms).Pairwise (· < ·)

/-! ## Look-up after a change -/

@[simp] theorem get?_nil (key : String) : get? key ([] : Members α) = none := rfl

@[simp] theorem get?_cons (key k : String) (v : α) (rest : Members α) :
    get? key ((k, v) :: rest) = if k = key then some v else get? key rest := rfl

theorem get?_insert (key other : String) (value : α) (ms : Members α) :
    get? other (insert key value ms) = if key = other then some value else get? other ms := by
  fun_induction insert key value ms <;> grind [get?]

theorem get?_erase (key other : String) (ms : Members α) :
    get? other (erase key ms) = if key = other then none else get? other ms := by
  induction ms with
  | nil => simp [erase]
  | cons m rest ih =>
    obtain ⟨k, v⟩ := m
    unfold erase at ih ⊢
    by_cases hk : k = key
    · simp only [hk, bne_self_eq_false, Bool.false_eq_true, not_false_eq_true,
        List.filter_cons_of_neg, ih, get?_cons]
      split <;> rfl
    · have hne : (k != key) = true := by simp [hk]
      simp only [hne, List.filter_cons_of_pos, get?_cons, ih]
      grind

end Members

end HeadUnit
