import HeadUnit.Json.Reader
import HeadUnit.Proofs.Json.Tokens
import HeadUnit.Proofs.Members.Ascending

/-!
# JSON through text

The compact text of a tree is read if no more arrays and objects enclose a place than may be open at
once, and is refused otherwise. It is read as the tree, with its doubles as their digits are read,
with one exception: an object whose first key is the embedding key is not read as itself, but as
what the text in it writes.

## Main definitions

* `Json.WellFormed` — keys ascend in every object.
* `Json.unembed?` — the tree with the trees of embedded texts in their places.
* `Json.EmbedsNothing` — no object has the embedding key first.
* `Json.ReadsTexts` — a reader of embedded texts that reads those among some tokens.
* `Json.Legible` — what makes the text of a tree be read as the tree.

## Main statements

* `Json.parse?_render_reread` — what the compact text of a tree is read as.
* `Json.parse?_render` — the same for doubles that are read back.
* `Json.legible_array`, `Json.legible_object` — legible trees from legible parts.
-/

namespace HeadUnit.Json

mutual

/-- Keys ascend in every object of the tree. -/
def WellFormed : Json → Prop
  | .array items => WellFormedItems items
  | .object members => Members.Ascending members ∧ WellFormedMembers members
  | _ => True

def WellFormedItems : List Json → Prop
  | [] => True
  | item :: rest => item.WellFormed ∧ WellFormedItems rest

def WellFormedMembers : List (String × Json) → Prop
  | [] => True
  | (_, value) :: rest => value.WellFormed ∧ WellFormedMembers rest

end

/-! ## Embedded text -/

/-- Whether the object of these members is read as an embedded value. -/
def embeds : List (String × Json) → Bool
  | [] => false
  | (key, _) :: _ => key == embeddingKey

/-- The tree of an embedded text, which has to be the only member. -/
def embedded? : List (String × Json) → Option Json
  | [(_, .string s)] => parse? s
  | _ => none

theorem nesting_of_embedded? {key : String} {value tree : Json} {members : List (String × Json)}
    (h : embedded? ((key, value) :: members) = some tree) :
    value.nesting = 0 ∧ nestingMembers members = 0 := by
  unfold embedded? at h
  split at h
  case h_1 heq =>
    cases heq
    exact ⟨rfl, rfl⟩
  case h_2 => cases h

mutual

/-- The tree with the trees of embedded texts in their places, if all of them have one. -/
def unembed? : Json → Option Json
  | .array items => (unembedItems? items).map .array
  | .object members =>
    if embeds members then embedded? members else (unembedMembers? members).map .object
  | json => some json

def unembedItems? : List Json → Option (List Json)
  | [] => some []
  | item :: rest => item.unembed?.bind fun item => (unembedItems? rest).map (item :: ·)

def unembedMembers? : List (String × Json) → Option (List (String × Json))
  | [] => some []
  | (key, value) :: rest =>
    value.unembed?.bind fun value => (unembedMembers? rest).map ((key, value) :: ·)

end

mutual

/-- No object of the tree has the embedding key first. -/
def EmbedsNothing : Json → Prop
  | .array items => EmbedsNothingItems items
  | .object members => embeds members = false ∧ EmbedsNothingMembers members
  | _ => True

def EmbedsNothingItems : List Json → Prop
  | [] => True
  | item :: rest => item.EmbedsNothing ∧ EmbedsNothingItems rest

def EmbedsNothingMembers : List (String × Json) → Prop
  | [] => True
  | (_, value) :: rest => value.EmbedsNothing ∧ EmbedsNothingMembers rest

end

mutual

theorem unembed?_eq_some : ∀ json : Json, json.EmbedsNothing → json.unembed? = some json
  | .null, _ | .bool _, _ | .integer .., _ | .float .., _ | .string _, _ => rfl
  | .array items, h => by
    rw [unembed?, unembedItems?_eq_some items h]
    rfl
  | .object members, h => by
    rw [unembed?, h.1, unembedMembers?_eq_some members h.2]
    rfl

theorem unembedItems?_eq_some :
    ∀ items : List Json, EmbedsNothingItems items → unembedItems? items = some items
  | [], _ => rfl
  | item :: rest, h => by
    rw [unembedItems?, unembed?_eq_some item h.1, unembedItems?_eq_some rest h.2]
    rfl

theorem unembedMembers?_eq_some : ∀ members : List (String × Json),
    EmbedsNothingMembers members → unembedMembers? members = some members
  | [], _ => rfl
  | (key, value) :: rest, h => by
    rw [unembedMembers?, unembed?_eq_some value h.1, unembedMembers?_eq_some rest h.2]
    rfl

end

/-! ## Reading the tokens of a tree -/

namespace Progress

variable {read? : String → Option Json} {stack : List Opened}

theorem run_cons (p : Progress) (token : Token) (tokens : List Token) :
    run read? p (token :: tokens) = (step read? p token).bind (run read? · tokens) :=
  List.foldlM_cons

theorem run_beginArray (tokens : List Token) :
    run read? (.awaitValue stack) (.beginArray :: tokens) =
      if stack.length < nestingLimit then run read? (.awaitFirstItem stack) tokens else none := by
  rw [run_cons, step, beginValue]
  split <;> rfl

theorem run_beginObject (tokens : List Token) :
    run read? (.awaitValue stack) (.beginObject :: tokens) =
      if stack.length < nestingLimit then run read? (.awaitFirstKey stack) tokens else none := by
  rw [run_cons, step, beginValue]
  split <;> rfl

/-- The first item of an array is read like any other. -/
theorem run_awaitFirstItem (json : Json) (tokens : List Token) :
    run read? (.awaitFirstItem stack) (json.tokens ++ tokens) =
      run read? (.awaitValue (.array [] :: stack)) (json.tokens ++ tokens) := by
  cases json with
  | array items => cases items <;> rfl
  | object members => cases members <;> rfl
  | _ => rfl

/-- An embedded text has to be the only member of its object. -/
theorem run_awaitEmbeddedText {value : Json} (hread : ∀ s, value = .string s → read? s = parse? s)
    (members : List (String × Json)) (rest : List Token) :
    run read? (.awaitEmbeddedText stack)
        (value.tokens ++ (tokensMembers members ++ .endObject :: rest)) =
      (embedded? ((embeddingKey, value) :: members)).bind fun value =>
        run read? (.complete value stack) rest := by
  cases value with
  | string s =>
    change run read? _ (.text s :: _) = _
    rw [run_cons, step, hread s rfl]
    cases members with
    | nil => cases hparse : parse? s <;> simp only [embedded?, hparse] <;> rfl
    | cons m members => cases parse? s <;> rfl
  | array items => cases items <;> rfl
  | object members => cases members <;> rfl
  | _ => rfl

/-- The first member of an object that embeds nothing is read like any other. -/
theorem run_awaitFirstKey {key : String} (h : key ≠ embeddingKey) (tokens : List Token) :
    run read? (.awaitFirstKey stack) (.text key :: .colon :: tokens) =
      run read? (.awaitValue (.object [] key :: stack)) tokens := by
  rw [run_cons, step, if_neg h]
  rfl

end Progress

open Progress

/-- There is room for both of two values if there is for the deeper one. -/
theorem room_and_room {α β : Type} (value : Option α) (next : α → Option β) (a b limit : Nat) :
    (if a ≤ limit then value.bind fun v => if b ≤ limit then next v else none else none) =
      if max a b ≤ limit then value.bind next else none := by
  by_cases ha : a ≤ limit <;> by_cases hb : b ≤ limit <;> simp [ha, hb]

/-- The texts among the tokens are read as if they stood alone. -/
def ReadsTexts (read? : String → Option Json) (tokens : List Token) : Prop :=
  ∀ s : String, .text s ∈ tokens → read? s = parse? s

mutual

/-- The tokens of a tree are read as the tree without embedded texts, if there is room for what
it opens. -/
theorem run_tokens {read? : String → Option Json} :
    ∀ (json : Json) (stack : List Opened) (rest : List Token), json.WellFormed →
      ReadsTexts read? json.tokens → stack.length ≤ nestingLimit →
      run read? (.awaitValue stack) (json.tokens ++ rest) =
        if stack.length + json.nesting ≤ nestingLimit then
          json.unembed?.bind fun value => run read? (.complete value stack) rest
        else none
  | .null, _, _, _, _, hstack | .bool _, _, _, _, _, hstack | .integer .., _, _, _, _, hstack
  | .float .., _, _, _, _, hstack | .string _, _, _, _, _, hstack => (if_pos hstack).symm
  | .array [], stack, rest, _, _, _ => by
    change run read? (.awaitValue stack) (.beginArray :: .endArray :: rest) = _
    rw [run_beginArray]
    rfl
  | .array (item :: items), stack, rest, h, hread, _ => by
    have hitem : ReadsTexts read? item.tokens := fun s hs => hread s (by simp [tokens, hs])
    have hitems : ReadsTexts read? (tokensItems items) := fun s hs => hread s (by simp [tokens, hs])
    have htokens : tokens (.array (item :: items)) ++ rest =
        .beginArray :: (item.tokens ++ (tokensItems items ++ .endArray :: rest)) := by
      simp [tokens]
    have hdepth : stack.length + nesting (.array (item :: items)) =
        max (stack.length + 1 + item.nesting) (stack.length + 1 + nestingItems items) := by
      rw [nesting, nestingItems]
      omega
    rw [htokens, run_beginArray, hdepth]
    split
    case isTrue hroom =>
      rw [run_awaitFirstItem, run_tokens item (.array [] :: stack) _ h.1 hitem hroom]
      simp only [run_tokensItems items stack [] _ rest h.2 hitems hroom, List.length_cons]
      rw [room_and_room]
      simp [unembed?, unembedItems?, Option.bind_assoc, Option.map_eq_bind]
    case isFalse hroom =>
      rw [if_neg (by omega)]
  | .object [], stack, rest, _, _, _ => by
    change run read? (.awaitValue stack) (.beginObject :: .endObject :: rest) = _
    rw [run_beginObject]
    rfl
  | .object ((key, value) :: members), stack, rest, h, hread, _ => by
    have hvalue : ReadsTexts read? value.tokens := fun s hs => hread s (by simp [tokens, hs])
    have hmembers : ReadsTexts read? (tokensMembers members) :=
      fun s hs => hread s (by simp [tokens, hs])
    have htokens : tokens (.object ((key, value) :: members)) ++ rest = .beginObject ::
        .text key :: .colon :: (value.tokens ++ (tokensMembers members ++ .endObject :: rest)) := by
      simp [tokens]
    have hdepth : stack.length + nesting (.object ((key, value) :: members)) =
        max (stack.length + 1 + value.nesting) (stack.length + 1 + nestingMembers members) := by
      rw [nesting, nestingMembers]
      omega
    rw [htokens, run_beginObject, hdepth]
    split
    case isTrue hroom =>
      by_cases hkey : key = embeddingKey
      · subst hkey
        have htext : ∀ s, value = .string s → read? s = parse? s := by
          rintro s rfl
          exact hvalue s (by simp [tokens])
        change run read? (.awaitEmbeddedText stack) _ = _
        rw [run_awaitEmbeddedText htext, unembed?, embeds, beq_self_eq_true, if_pos rfl]
        cases hembedded : embedded? ((embeddingKey, value) :: members) with
        | none => split <;> rfl
        | some v =>
          obtain ⟨hflat, hnone⟩ := nesting_of_embedded? hembedded
          rw [if_pos (by omega)]
      · rw [run_awaitFirstKey hkey, run_tokens value (.object [] key :: stack) _ h.2.1 hvalue hroom]
        simp only [run_tokensMembers members stack [] key _ rest h.1 h.2.2 hmembers hroom,
          List.length_cons]
        rw [room_and_room]
        simp [unembed?, embeds, hkey, unembedMembers?, Option.bind_assoc, Option.map_eq_bind]
    case isFalse hroom =>
      rw [if_neg (by omega)]

/-- Further items are read up to the end of their array. -/
theorem run_tokensItems {read? : String → Option Json} :
    ∀ (items : List Json) (stack : List Opened) (placed : List Json) (value : Json)
      (rest : List Token), WellFormedItems items →
      ReadsTexts read? (tokensItems items) → stack.length < nestingLimit →
      run read? (.complete value (.array placed :: stack))
          (tokensItems items ++ .endArray :: rest) =
        if stack.length + 1 + nestingItems items ≤ nestingLimit then
          (unembedItems? items).bind fun items =>
            run read? (.complete (.array ((value :: placed).reverse ++ items)) stack) rest
        else none
  | [], stack, placed, value, rest, _, _, hroom => by
    rw [if_pos (show stack.length + 1 + nestingItems [] ≤ nestingLimit from hroom)]
    change run read? (.complete (.array (value :: placed).reverse) stack) rest = _
    simp [unembedItems?]
  | item :: items, stack, placed, value, rest, h, hread, hroom => by
    have hitem : ReadsTexts read? item.tokens := fun s hs => hread s (by simp [tokensItems, hs])
    have hitems : ReadsTexts read? (tokensItems items) :=
      fun s hs => hread s (by simp [tokensItems, hs])
    have htokens : tokensItems (item :: items) ++ .endArray :: rest =
        .comma :: (item.tokens ++ (tokensItems items ++ .endArray :: rest)) := by
      simp [tokensItems]
    have hdepth : stack.length + 1 + nestingItems (item :: items) =
        max (stack.length + 1 + item.nesting) (stack.length + 1 + nestingItems items) := by
      rw [nestingItems]
      omega
    rw [htokens, hdepth]
    change run read? (.awaitValue (.array (value :: placed) :: stack)) _ = _
    rw [run_tokens item (.array (value :: placed) :: stack) _ h.1 hitem hroom]
    simp only [run_tokensItems items stack (value :: placed) _ rest h.2 hitems hroom,
      List.length_cons]
    rw [room_and_room]
    simp [unembedItems?, Option.bind_assoc, Option.map_eq_bind]

/-- Further members are read up to the end of their object. -/
theorem run_tokensMembers {read? : String → Option Json} :
    ∀ (members : List (String × Json)) (stack : List Opened) (placed : List (String × Json))
      (key : String) (value : Json) (rest : List Token),
      (Members.keys placed ++ key :: Members.keys members).Pairwise (· < ·) →
      WellFormedMembers members →
      ReadsTexts read? (tokensMembers members) → stack.length < nestingLimit →
      run read? (.complete value (.object placed key :: stack))
          (tokensMembers members ++ .endObject :: rest) =
        if stack.length + 1 + nestingMembers members ≤ nestingLimit then
          (unembedMembers? members).bind fun members =>
            run read? (.complete (.object (placed ++ (key, value) :: members)) stack) rest
        else none
  | [], stack, placed, key, value, rest, hasc, _, _, hroom => by
    rw [if_pos (show stack.length + 1 + nestingMembers [] ≤ nestingLimit from hroom)]
    have hlast : ∀ k ∈ Members.keys placed, k < key := fun k hk =>
      (List.pairwise_append.1 hasc).2.2 k hk key List.mem_cons_self
    change run read? (.complete (.object (Members.insert key value placed)) stack) rest = _
    rw [Members.insert_eq_append value hlast]
    rfl
  | (other, json) :: members, stack, placed, key, value, rest, hasc, h, hread, hroom => by
    have hjson : ReadsTexts read? json.tokens := fun s hs => hread s (by simp [tokensMembers, hs])
    have hmembers : ReadsTexts read? (tokensMembers members) :=
      fun s hs => hread s (by simp [tokensMembers, hs])
    have hlast : ∀ k ∈ Members.keys placed, k < key := fun k hk =>
      (List.pairwise_append.1 hasc).2.2 k hk key List.mem_cons_self
    have hasc' : (Members.keys (placed ++ [(key, value)]) ++ other :: Members.keys members).Pairwise
        (· < ·) := by
      simpa using hasc
    have htokens : tokensMembers ((other, json) :: members) ++ .endObject :: rest =
        .comma :: .text other :: .colon ::
          (json.tokens ++ (tokensMembers members ++ .endObject :: rest)) := by
      simp [tokensMembers]
    have hdepth : stack.length + 1 + nestingMembers ((other, json) :: members) =
        max (stack.length + 1 + json.nesting) (stack.length + 1 + nestingMembers members) := by
      rw [nestingMembers]
      omega
    rw [htokens, hdepth]
    change run read? (.awaitValue (.object (Members.insert key value placed) other :: stack)) _ = _
    rw [Members.insert_eq_append value hlast,
      run_tokens json (.object (placed ++ [(key, value)]) other :: stack) _ h.1 hjson hroom]
    simp only [run_tokensMembers members stack (placed ++ [(key, value)]) other _ rest hasc' h.2
      hmembers hroom, List.length_cons]
    rw [room_and_room]
    simp [unembedMembers?, Option.bind_assoc, Option.map_eq_bind]

end

/-! ## Doubles as they are read -/

mutual

@[simp] theorem nesting_reread : ∀ json : Json, json.reread.nesting = json.nesting
  | .null | .bool _ | .integer .. | .float .. | .string _ => rfl
  | .array items => by rw [reread, nesting, nesting, nestingItems_rereadItems items]
  | .object members => by rw [reread, nesting, nesting, nestingMembers_rereadMembers members]

theorem nestingItems_rereadItems : ∀ items : List Json,
    nestingItems (rereadItems items) = nestingItems items
  | [] => rfl
  | item :: rest => by
    rw [rereadItems, nestingItems, nestingItems, nesting_reread item, nestingItems_rereadItems rest]

theorem nestingMembers_rereadMembers : ∀ members : List (String × Json),
    nestingMembers (rereadMembers members) = nestingMembers members
  | [] => rfl
  | (_, value) :: rest => by
    rw [rereadMembers, nestingMembers, nestingMembers, nesting_reread value,
      nestingMembers_rereadMembers rest]

end

@[simp] theorem keys_rereadMembers (members : List (String × Json)) :
    Members.keys (rereadMembers members) = Members.keys members := by
  induction members with
  | nil => rfl
  | cons m rest ih => rw [rereadMembers, Members.keys_cons, Members.keys_cons, ih]

mutual

theorem WellFormed.reread : ∀ {json : Json}, json.WellFormed → json.reread.WellFormed
  | .null, _ | .bool _, _ | .integer .., _ | .float .., _ | .string _, _ => trivial
  | .array _, h => wellFormedItems_rereadItems h
  | .object members, h =>
    ⟨(congrArg (List.Pairwise (· < ·)) (keys_rereadMembers members)).mpr h.1,
      wellFormedMembers_rereadMembers h.2⟩

theorem wellFormedItems_rereadItems : ∀ {items : List Json}, WellFormedItems items →
    WellFormedItems (rereadItems items)
  | [], _ => trivial
  | _ :: _, h => ⟨h.1.reread, wellFormedItems_rereadItems h.2⟩

theorem wellFormedMembers_rereadMembers : ∀ {members : List (String × Json)},
    WellFormedMembers members → WellFormedMembers (rereadMembers members)
  | [], _ => trivial
  | (_, _) :: _, h => ⟨h.1.reread, wellFormedMembers_rereadMembers h.2⟩

end

mutual

/-- A text is shorter than itself in quotes, so also than the text of a tree around it. -/
theorem length_lt_of_mem_tokens {s : String} : ∀ json : Json, .text s ∈ json.reread.tokens →
    s.length < json.chars.length
  | .null, h | .bool _, h | .integer .., h | .float .., h | .array [], h | .object [], h => by
    simp [reread, rereadItems, rereadMembers, tokens] at h
  | .string _, h => by
    obtain rfl : s = _ := by simpa [reread, tokens] using h
    exact length_lt_length_quote s
  | .array (item :: items), h => by
    have hmem : .text s ∈ item.reread.tokens ∨ .text s ∈ tokensItems (rereadItems items) := by
      simpa [reread, rereadItems, tokens] using h
    simp only [chars, List.length_append, List.length_cons, List.length_nil]
    rcases hmem with hmem | hmem
    · have := length_lt_of_mem_tokens item hmem
      omega
    · have := length_lt_of_mem_tokensItems items hmem
      omega
  | .object ((key, value) :: members), h => by
    have hmem : s = key ∨ .text s ∈ value.reread.tokens ∨
        .text s ∈ tokensMembers (rereadMembers members) := by
      simpa [reread, rereadMembers, tokens] using h
    simp only [chars, List.length_append, List.length_cons, List.length_nil]
    rcases hmem with rfl | hmem | hmem
    · have := length_lt_length_quote s
      omega
    · have := length_lt_of_mem_tokens value hmem
      omega
    · have := length_lt_of_mem_tokensMembers members hmem
      omega

theorem length_lt_of_mem_tokensItems {s : String} : ∀ items : List Json,
    .text s ∈ tokensItems (rereadItems items) → s.length < (charsItems items).length
  | [], h => by simp [rereadItems, tokensItems] at h
  | item :: items, h => by
    have hmem : .text s ∈ item.reread.tokens ∨ .text s ∈ tokensItems (rereadItems items) := by
      simpa [rereadItems, tokensItems] using h
    simp only [charsItems, List.length_append, List.length_cons]
    rcases hmem with hmem | hmem
    · have := length_lt_of_mem_tokens item hmem
      omega
    · have := length_lt_of_mem_tokensItems items hmem
      omega

theorem length_lt_of_mem_tokensMembers {s : String} : ∀ members : List (String × Json),
    .text s ∈ tokensMembers (rereadMembers members) → s.length < (charsMembers members).length
  | [], h => by simp [rereadMembers, tokensMembers] at h
  | (key, value) :: members, h => by
    have hmem : s = key ∨ .text s ∈ value.reread.tokens ∨
        .text s ∈ tokensMembers (rereadMembers members) := by
      simpa [rereadMembers, tokensMembers] using h
    simp only [charsMembers, List.length_append, List.length_cons]
    rcases hmem with rfl | hmem | hmem
    · have := length_lt_length_quote s
      omega
    · have := length_lt_of_mem_tokens value hmem
      omega
    · have := length_lt_of_mem_tokensMembers members hmem
      omega

end

/-! ## Reading the text of a tree -/

/-- The compact text of a tree is read as the tree with its doubles as their digits are read and the
trees of embedded texts in their places, if the tree is not nested too deeply, and is refused
otherwise. -/
theorem parse?_render_reread {json : Json} (h : json.WellFormed) :
    parse? json.render = if json.nesting ≤ nestingLimit then json.reread.unembed? else none := by
  have hlength : json.render.length = json.chars.length := String.length_ofList
  have htext : json.render.toList = json.chars := String.toList_ofList
  have hread : ReadsTexts (fun s => if _h : s.length < json.render.length then parse? s else none)
      json.reread.tokens :=
    fun s hs => dif_pos (hlength ▸ length_lt_of_mem_tokens json hs)
  have hrun := run_tokens json.reread [] [] h.reread hread (Nat.zero_le _)
  rw [List.append_nil, List.length_nil, Nat.zero_add, nesting_reread] at hrun
  rw [parse?, htext, lex_chars]
  simp only [Option.bind_eq_bind, Option.bind_some, hrun]
  split
  case isTrue => cases json.reread.unembed? <;> rfl
  case isFalse => rfl

/-- The compact text of a tree whose doubles are read back is read as the tree with the trees of
embedded texts in their places, if the tree is not nested too deeply, and is refused otherwise. -/
theorem parse?_render {json : Json} (h : json.WellFormed) (hfloats : json.ReadsBack) :
    parse? json.render = if json.nesting ≤ nestingLimit then json.unembed? else none := by
  rw [parse?_render_reread h, reread_eq_self json hfloats]

/-! ## Trees that are read as themselves -/

/-- Every double of the tree is read back, no object embeds a text, and at most `depth` arrays and
objects enclose a place. -/
structure Legible (depth : Nat) (json : Json) : Prop where
  readsBack : json.ReadsBack
  embedsNothing : json.EmbedsNothing
  nesting_le : json.nesting ≤ depth

theorem Legible.mono {m n : Nat} {json : Json} (h : json.Legible m) (hmn : m ≤ n) :
    json.Legible n :=
  ⟨h.readsBack, h.embedsNothing, Nat.le_trans h.nesting_le hmn⟩

theorem legibleItems {depth : Nat} {items : List Json} (h : ∀ item ∈ items, item.Legible depth) :
    ReadsBackItems items ∧ EmbedsNothingItems items ∧ nestingItems items ≤ depth := by
  induction items with
  | nil => exact ⟨trivial, trivial, Nat.zero_le _⟩
  | cons item rest ih =>
    obtain ⟨hitem, hrest⟩ := List.forall_mem_cons.1 h
    obtain ⟨hreads, hembeds, hnesting⟩ := ih hrest
    exact ⟨⟨hitem.readsBack, hreads⟩, ⟨hitem.embedsNothing, hembeds⟩,
      Nat.max_le.2 ⟨hitem.nesting_le, hnesting⟩⟩

theorem legible_array {depth : Nat} {items : List Json} (h : ∀ item ∈ items, item.Legible depth) :
    (array items).Legible (depth + 1) := by
  obtain ⟨hreads, hembeds, hnesting⟩ := legibleItems h
  exact ⟨hreads, hembeds, Nat.succ_le_succ hnesting⟩

theorem legibleMembers {depth : Nat} {members : List (String × Json)}
    (h : ∀ m ∈ members, m.2.Legible depth) :
    ReadsBackMembers members ∧ EmbedsNothingMembers members ∧ nestingMembers members ≤ depth := by
  induction members with
  | nil => exact ⟨trivial, trivial, Nat.zero_le _⟩
  | cons m rest ih =>
    obtain ⟨hm, hrest⟩ := List.forall_mem_cons.1 h
    obtain ⟨hreads, hembeds, hnesting⟩ := ih hrest
    exact ⟨⟨hm.readsBack, hreads⟩, ⟨hm.embedsNothing, hembeds⟩,
      Nat.max_le.2 ⟨hm.nesting_le, hnesting⟩⟩

theorem legible_object {depth : Nat} {members : List (String × Json)}
    (hkeys : ∀ m ∈ members, m.1 ≠ embeddingKey) (h : ∀ m ∈ members, m.2.Legible depth) :
    (object members).Legible (depth + 1) := by
  obtain ⟨hreads, hembeds, hnesting⟩ := legibleMembers h
  have hfirst : embeds members = false := by
    cases members with
    | nil => rfl
    | cons m rest => simp [embeds, hkeys m]
  exact ⟨hreads, ⟨hfirst, hembeds⟩, Nat.succ_le_succ hnesting⟩

end HeadUnit.Json
