import HeadUnit.Error

/-!
# Vocabularies

A vocabulary is an enumeration whose words have a name on the wire. Names may change with the
version: the first renaming of a word whose range contains the version decides, and without one
the word keeps its own name. Text that no word is named by at a version is not an error, so that
a newer peer's words do not disturb an older one.

## Main definitions

* `Vocabulary`, `Vocabulary.Word` — a table of words and an entry of it.
* `Vocabulary.wireName`, `Vocabulary.ofWireName?` — a word's name at a version, and the word of
  a name.
* `Vocabulary.validate` — refuses a vocabulary in which two words share a name.
-/

namespace HeadUnit

/-- A name for the word at `word` of a vocabulary with `size` words, at a range of versions. -/
structure Renaming (size : Nat) where
  word : Fin size
  range : Range
  name : String
deriving DecidableEq, Repr

/-- An enumeration: its words' labels with their own wire names, and the renamings. -/
structure Vocabulary where
  name : String
  words : List (String × String)
  renamings : List (Renaming words.length) := []
deriving DecidableEq, Repr

namespace Vocabulary

/-- An entry of a vocabulary, by its place. -/
abbrev Word (t : Vocabulary) := Fin t.words.length

/-- The words in the order of the table. -/
def all (t : Vocabulary) : List t.Word :=
  List.finRange t.words.length

/-- The word's name inside the program. -/
def label (t : Vocabulary) (w : t.Word) : String :=
  t.words[w].1

/-- The wire name that holds where no renaming does. -/
def initialName (t : Vocabulary) (w : t.Word) : String :=
  t.words[w].2

/-- The word with this label. -/
def ofLabel? (t : Vocabulary) (s : String) : Option t.Word :=
  t.all.find? (t.label · == s)

/-- The word's name on the wire at `v`. -/
def wireName (t : Vocabulary) (v : Version) (w : t.Word) : String :=
  match t.renamings.find? (fun r => r.word == w && r.range.contains v) with
  | some r => r.name
  | none => t.initialName w

/-- The first word that `s` names at `v`. -/
def ofWireName? (t : Vocabulary) (v : Version) (s : String) : Option t.Word :=
  t.all.find? (t.wireName v · == s)

/-- The first word of `ws` whose name a later one has too. -/
def ambiguous? (t : Vocabulary) (v : Version) : List t.Word → Option t.Word
  | [] => none
  | w :: rest =>
    if rest.any (t.wireName v · == t.wireName v w) then some w else ambiguous? t v rest

/-- No two words may share a name at `v`. -/
def validateAt (t : Vocabulary) (v : Version) : Except Error Unit :=
  match t.ambiguous? v t.all with
  | some w => .error (.schema (.ambiguousName t.name (t.wireName v w) v))
  | none => .ok ()

/-- No two words may share a name at any version. -/
def validate (t : Vocabulary) : Except Error Unit :=
  Version.all.forM t.validateAt

end Vocabulary

end HeadUnit
