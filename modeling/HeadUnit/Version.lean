/-!
# Protocol versions

Two peers agree on one of five protocol versions. Names that changed between versions are bound
to ranges of version numbers; a range without an end reaches every larger number.

## Main definitions

* `Version` — the supported versions.
* `Range`, `Range.holds`, `Range.overlaps` — ranges of version numbers.
-/

namespace HeadUnit

/-- A supported protocol version. -/
inductive Version where
  | v1
  | v2
  | v3
  | v4
  | v5
deriving DecidableEq, Repr

namespace Version

def number : Version → UInt8
  | .v1 => 1
  | .v2 => 2
  | .v3 => 3
  | .v4 => 4
  | .v5 => 5

/-- Every supported version, oldest first. -/
def all : List Version :=
  [.v1, .v2, .v3, .v4, .v5]

def oldest : Version := .v1

/-- The version that holds when nothing else was agreed. -/
def latest : Version := .v5

/-- The supported version with this number. -/
def ofNumber? (n : UInt8) : Option Version :=
  all.find? (·.number == n)

def label (v : Version) : String :=
  s!"v{v.number}"

@[simp] theorem mem_all (v : Version) : v ∈ all := by
  cases v <;> decide

/-- What is decided of each version is decided of all. -/
instance {p : Version → Prop} [DecidablePred p] : Decidable (∀ v, p v) :=
  decidable_of_iff (∀ v ∈ all, p v) ⟨fun h v => h v (mem_all v), fun h v _ => h v⟩

@[simp] theorem ofNumber?_number (v : Version) : ofNumber? v.number = some v := by
  cases v <;> decide

end Version

/-- A range of version numbers, both ends included. -/
structure Range where
  first : UInt8
  last : Option UInt8
deriving DecidableEq, Repr

namespace Range

/-- Every number from `first` on. -/
def since (first : UInt8) : Range :=
  ⟨first, none⟩

def between (first last : UInt8) : Range :=
  ⟨first, some last⟩

/-- Every version. -/
def all : Range :=
  since 1

/-- The greatest number of the range. -/
def bound (r : Range) : UInt8 :=
  r.last.getD 255

def holds (r : Range) (n : UInt8) : Bool :=
  decide (r.first ≤ n ∧ n ≤ r.bound)

def contains (r : Range) (v : Version) : Bool :=
  r.holds v.number

/-- Neither range ends before the other begins. -/
def overlaps (r s : Range) : Bool :=
  decide (r.first ≤ s.bound ∧ s.first ≤ r.bound)

/-- The range ends before it begins, so it holds no number. -/
def isInverted (r : Range) : Bool :=
  r.last.any (· < r.first)

def label (r : Range) : String :=
  match r.last with
  | some last => s!"v{r.first}..=v{last}"
  | none => s!"v{r.first}.."

end Range

end HeadUnit
