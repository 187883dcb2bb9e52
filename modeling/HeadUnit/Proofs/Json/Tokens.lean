import HeadUnit.Proofs.Json.Reread
import HeadUnit.Proofs.Json.Text

/-!
# Tokens of the compact text

The compact text of a tree is read as the tokens of a tree that differs from it in doubles only. It
is read as the tree's own tokens if the doubles of the tree are read back from their digits.

## Main definitions

* `Json.tokens` — the tokens of the compact text.
* `Json.reread` — the tree with each double as its text is read.
* `Json.ReadsBack` — every double of the tree is read back from its printed digits.
* `Json.Token.Fixed` — the tokens that are written in one way only.

## Main statements

* `Json.lex_fixed_append`, `Json.lex_quote_append`, `Json.lex_numeral` — one token.
* `Json.lex_chars_append` — the text of a tree, in front of other text.
-/

namespace HeadUnit.Json

mutual

/-- The tokens of the compact text. -/
def tokens : Json → List Token
  | .string s => [.text s]
  | .array [] => [.beginArray, .endArray]
  | .array (item :: rest) => .beginArray :: (item.tokens ++ tokensItems rest ++ [.endArray])
  | .object [] => [.beginObject, .endObject]
  | .object ((key, value) :: rest) =>
    .beginObject :: .text key :: .colon :: (value.tokens ++ tokensMembers rest ++ [.endObject])
  | json => [.scalar json]

/-- Further items, each after a comma. -/
def tokensItems : List Json → List Token
  | [] => []
  | item :: rest => .comma :: (item.tokens ++ tokensItems rest)

/-- Further members, each after a comma. -/
def tokensMembers : List (String × Json) → List Token
  | [] => []
  | (key, value) :: rest => .comma :: .text key :: .colon :: (value.tokens ++ tokensMembers rest)

end

mutual

/-- The tree with each double as its text is read. -/
def reread : Json → Json
  | .float x finite => .float x.reread (Binary64.resembles_reread finite).isFinite
  | .array items => .array (rereadItems items)
  | .object members => .object (rereadMembers members)
  | json => json

def rereadItems : List Json → List Json
  | [] => []
  | item :: rest => item.reread :: rereadItems rest

def rereadMembers : List (String × Json) → List (String × Json)
  | [] => []
  | (key, value) :: rest => (key, value.reread) :: rereadMembers rest

end

mutual

/-- Every double of the tree is read back from its printed digits. -/
def ReadsBack : Json → Prop
  | .float x _ => x.ReadsBack
  | .array items => ReadsBackItems items
  | .object members => ReadsBackMembers members
  | _ => True

def ReadsBackItems : List Json → Prop
  | [] => True
  | item :: rest => item.ReadsBack ∧ ReadsBackItems rest

def ReadsBackMembers : List (String × Json) → Prop
  | [] => True
  | (_, value) :: rest => value.ReadsBack ∧ ReadsBackMembers rest

end

mutual

theorem reread_eq_self : ∀ json : Json, json.ReadsBack → json.reread = json
  | .null, _ | .bool _, _ | .integer .., _ | .string _, _ => rfl
  | .float x finite, h => by
    simp only [reread, (Binary64.reread_eq_self_iff finite).2 h]
  | .array items, h => by rw [reread, rereadItems_eq_self items h]
  | .object members, h => by rw [reread, rereadMembers_eq_self members h]

theorem rereadItems_eq_self : ∀ items : List Json, ReadsBackItems items → rereadItems items = items
  | [], _ => rfl
  | item :: rest, h => by
    rw [rereadItems, reread_eq_self item h.1, rereadItems_eq_self rest h.2]

theorem rereadMembers_eq_self :
    ∀ members : List (String × Json), ReadsBackMembers members → rereadMembers members = members
  | [], _ => rfl
  | (key, value) :: rest, h => by
    rw [rereadMembers, reread_eq_self value h.1, rereadMembers_eq_self rest h.2]

end

/-! ## The equations of the lexer -/

/-- A token that is written in one way only, with its text. No other token starts like it. -/
inductive Token.Fixed : List Char → Token → Prop
  | beginArray : Fixed ['['] .beginArray
  | endArray : Fixed [']'] .endArray
  | beginObject : Fixed ['\x7b'] .beginObject
  | endObject : Fixed ['\x7d'] .endObject
  | comma : Fixed [','] .comma
  | colon : Fixed [':'] .colon
  | null : Fixed ['n', 'u', 'l', 'l'] (.scalar .null)
  | true : Fixed ['t', 'r', 'u', 'e'] (.scalar (.bool true))
  | false : Fixed ['f', 'a', 'l', 's', 'e'] (.scalar (.bool false))

section Lex

open Token

variable {s rest : List Char}

theorem lex_nil : lex [] = some [] := by rw [lex]

theorem lex_fixed_append {text : List Char} {token : Token} (h : Fixed text token)
    (rest : List Char) : lex (text ++ rest) = (lex rest).map (token :: ·) := by
  cases h <;> simp only [List.cons_append, List.nil_append, lex]

theorem lex_quote_append (text : String) (rest : List Char) :
    lex (quote text ++ rest) = (lex rest).map (.text text :: ·) := by
  have hread := unquote?_flatMap_escape text.toList rest
  have hquote : quote text ++ rest = '"' :: (text.toList.flatMap escape ++ '"' :: rest) := by
    simp [quote]
  rw [hquote, lex]
  split
  case h_1 hnone =>
    rw [hread] at hnone
    cases hnone
  case h_2 hsome =>
    rw [hread] at hsome
    cases hsome
    rw [String.ofList_toList]

theorem lex_numeral {n : Numeral} {value : Json} (hread : Numeral.ofChars? s = some (n, rest))
    (hvalue : n.toJson? = some value) : lex s = (lex rest).map (.scalar value :: ·) := by
  obtain ⟨c, t, rfl, hstart⟩ := Numeral.exists_cons_of_ofChars? hread
  have hnumeral : startsNumeral c = true := by
    rcases hstart with rfl | hdigit
    · rfl
    · simp [startsNumeral, hdigit]
  have hblank : isBlank c = false := by
    rcases hstart with rfl | hdigit
    · rfl
    · apply Bool.eq_false_iff.2
      intro hblank
      simp only [isBlank, Bool.or_eq_true, beq_iff_eq] at hblank
      rcases hblank with ((rfl | rfl) | rfl) | rfl <;> exact absurd hdigit (by decide)
  rw [lex.eq_def]
  split
  case h_1 heq => cases heq
  case h_12 heq =>
    cases heq
    rw [hblank, hnumeral, if_neg Bool.false_ne_true, if_pos rfl]
    split
    case h_1 hnone =>
      rw [hread] at hnone
      cases hnone
    case h_2 hsome =>
      rw [hread] at hsome
      cases hsome
      rw [hvalue]
  -- No other token starts like a numeral.
  all_goals
    rename_i heq
    cases heq
    exact absurd hnumeral (by decide)

end Lex

/-! ## The text of a tree -/

theorem endsNumeral_charsItems {rest : List Char} (hrest : EndsNumeral rest) (items : List Json) :
    EndsNumeral (charsItems items ++ rest) := by
  cases items with
  | nil => exact hrest
  | cons item items => exact endsNumeral_comma _

theorem endsNumeral_charsMembers {rest : List Char} (hrest : EndsNumeral rest)
    (members : List (String × Json)) : EndsNumeral (charsMembers members ++ rest) := by
  cases members with
  | nil => exact hrest
  | cons m members => exact endsNumeral_comma _

mutual

/-- The compact text is read as the tokens of the tree with its doubles as they are read, in front
of text that ends a numeral. -/
theorem lex_chars_append : ∀ (json : Json) {rest : List Char}, EndsNumeral rest →
    Token.lex (json.chars ++ rest) = (Token.lex rest).map (json.reread.tokens ++ ·)
  | .null, rest, _ => lex_fixed_append .null rest
  | .bool true, rest, _ => lex_fixed_append .true rest
  | .bool false, rest, _ => lex_fixed_append .false rest
  | .integer n low high, _, hrest =>
    lex_numeral (Numeral.ofChars?_append hrest (Numeral.ofChars?_renderInt n))
      (Numeral.toJson?_ofInt n low high)
  | .float _ finite, _, hrest => by
    obtain ⟨n, hread, hvalue⟩ := Binary64.exists_numeral_reread finite
    exact lex_numeral (Numeral.ofChars?_append hrest hread) hvalue
  | .string s, rest, _ => lex_quote_append s rest
  | .array [], rest, _ => by
    change Token.lex (['['] ++ ([']'] ++ rest)) = _
    rw [lex_fixed_append .beginArray, lex_fixed_append .endArray, Option.map_map]
    rfl
  | .array (item :: items), rest, _ => by
    have htext : chars (.array (item :: items)) ++ rest =
        ['['] ++ (item.chars ++ (charsItems items ++ ([']'] ++ rest))) := by
      simp [chars]
    have hend : EndsNumeral ([']'] ++ rest) := endsNumeral_endArray rest
    rw [htext, lex_fixed_append .beginArray,
      lex_chars_append item (endsNumeral_charsItems hend items),
      lex_charsItems_append items hend, lex_fixed_append .endArray]
    simp [reread, rereadItems, tokens, Function.comp_def]
  | .object [], rest, _ => by
    change Token.lex (['\x7b'] ++ (['\x7d'] ++ rest)) = _
    rw [lex_fixed_append .beginObject, lex_fixed_append .endObject, Option.map_map]
    rfl
  | .object ((key, value) :: members), rest, _ => by
    have htext : chars (.object ((key, value) :: members)) ++ rest = ['\x7b'] ++ (quote key ++
        ([':'] ++ (value.chars ++ (charsMembers members ++ (['\x7d'] ++ rest))))) := by
      simp [chars]
    have hend : EndsNumeral (['\x7d'] ++ rest) := endsNumeral_endObject rest
    rw [htext, lex_fixed_append .beginObject, lex_quote_append, lex_fixed_append .colon,
      lex_chars_append value (endsNumeral_charsMembers hend members),
      lex_charsMembers_append members hend, lex_fixed_append .endObject]
    simp [reread, rereadMembers, tokens, Function.comp_def]

theorem lex_charsItems_append : ∀ (items : List Json) {rest : List Char}, EndsNumeral rest →
    Token.lex (charsItems items ++ rest) =
      (Token.lex rest).map (tokensItems (rereadItems items) ++ ·)
  | [], _, _ => (Option.map_id' ..).symm
  | item :: items, rest, hrest => by
    have htext : charsItems (item :: items) ++ rest =
        [','] ++ (item.chars ++ (charsItems items ++ rest)) := by
      simp [charsItems]
    rw [htext, lex_fixed_append .comma, lex_chars_append item (endsNumeral_charsItems hrest items),
      lex_charsItems_append items hrest]
    simp [rereadItems, tokensItems, Function.comp_def]

theorem lex_charsMembers_append : ∀ (members : List (String × Json)) {rest : List Char},
    EndsNumeral rest → Token.lex (charsMembers members ++ rest) =
      (Token.lex rest).map (tokensMembers (rereadMembers members) ++ ·)
  | [], _, _ => (Option.map_id' ..).symm
  | (key, value) :: members, rest, hrest => by
    have htext : charsMembers ((key, value) :: members) ++ rest =
        [','] ++ (quote key ++ ([':'] ++ (value.chars ++ (charsMembers members ++ rest)))) := by
      simp [charsMembers]
    rw [htext, lex_fixed_append .comma, lex_quote_append, lex_fixed_append .colon,
      lex_chars_append value (endsNumeral_charsMembers hrest members),
      lex_charsMembers_append members hrest]
    simp [rereadMembers, tokensMembers, Function.comp_def]

end

/-- The compact text is read as the tokens of the tree with its doubles as they are read. -/
theorem lex_chars (json : Json) : Token.lex json.chars = some json.reread.tokens := by
  have hlex := lex_chars_append json endsNumeral_nil
  simpa [lex_nil] using hlex

end HeadUnit.Json
