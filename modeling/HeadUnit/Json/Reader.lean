import HeadUnit.Json.Token

/-!
# Reading JSON

The tokens of a text are read one after another into a stack of open arrays and objects. At most
127 of them may be open at once. A key that comes again in an object replaces its value.

A value may be embedded as text: an object whose first key is `Json.embeddingKey` has a text as
its only value, and stands for what that text writes.

## Main definitions

* `Json.Progress` — what has been read so far.
* `Json.Progress.step` — the effect of one more token.
* `Json.parse?` — the tree of a text.
* `Json.parseMembers?` — the members of a text that is an object and embeds nothing itself.
* `Json.ofUtf8?` — the tree of a text given by its bytes.
-/

namespace HeadUnit.Json

/-- How many arrays and objects may be open at once. -/
def nestingLimit : Nat := 127

/-- The first key of an object that embeds a value as text. -/
def embeddingKey : String := "$serde_json::private::RawValue"

/-- An array or object whose next value is being read. Items are held last first. -/
inductive Opened where
  | array (items : List Json)
  | object (members : List (String × Json)) (key : String)

/-- What has been read so far, with the arrays and objects that are still open, innermost
first. -/
inductive Progress where
  /-- A value has to follow. -/
  | awaitValue (stack : List Opened)
  /-- A value or the end of a new array has to follow. -/
  | awaitFirstItem (stack : List Opened)
  /-- A key or the end of a new object has to follow. -/
  | awaitFirstKey (stack : List Opened)
  /-- A key has to follow. -/
  | awaitKey (members : List (String × Json)) (stack : List Opened)
  /-- The colon after a key has to follow. -/
  | awaitColon (members : List (String × Json)) (key : String) (stack : List Opened)
  /-- The colon after the key of an embedded value has to follow. -/
  | awaitEmbeddedColon (stack : List Opened)
  /-- The text of an embedded value has to follow. -/
  | awaitEmbeddedText (stack : List Opened)
  /-- The end of the object around an embedded value has to follow. -/
  | awaitEmbeddedEnd (value : Json) (stack : List Opened)
  /-- A value is complete. -/
  | complete (value : Json) (stack : List Opened)

namespace Progress

/-- A token that starts or is a value. -/
def beginValue (stack : List Opened) : Token → Option Progress
  | .scalar value => some (.complete value stack)
  | .text s => some (.complete (.string s) stack)
  | .beginArray => if stack.length < nestingLimit then some (.awaitFirstItem stack) else none
  | .beginObject => if stack.length < nestingLimit then some (.awaitFirstKey stack) else none
  | _ => none

/-- A token after a complete value: a comma, or the end of the array or object around it. -/
def afterValue (value : Json) : List Opened → Token → Option Progress
  | .array items :: stack, .comma => some (.awaitValue (.array (value :: items) :: stack))
  | .array items :: stack, .endArray => some (.complete (.array (value :: items).reverse) stack)
  | .object members key :: stack, .comma =>
    some (.awaitKey (Members.insert key value members) stack)
  | .object members key :: stack, .endObject =>
    some (.complete (.object (Members.insert key value members)) stack)
  | _, _ => none

/-- The effect of one more token, unless it cannot stand there. An embedded text is read by
`read?`. -/
def step (read? : String → Option Json) : Progress → Token → Option Progress
  | .awaitValue stack, token => beginValue stack token
  | .awaitFirstItem stack, .endArray => some (.complete (.array []) stack)
  | .awaitFirstItem stack, token => beginValue (.array [] :: stack) token
  | .awaitFirstKey stack, .endObject => some (.complete (.object []) stack)
  | .awaitFirstKey stack, .text key =>
    some (if key = embeddingKey then .awaitEmbeddedColon stack else .awaitColon [] key stack)
  | .awaitKey members stack, .text key => some (.awaitColon members key stack)
  | .awaitColon members key stack, .colon => some (.awaitValue (.object members key :: stack))
  | .awaitEmbeddedColon stack, .colon => some (.awaitEmbeddedText stack)
  | .awaitEmbeddedText stack, .text s => (read? s).map (.awaitEmbeddedEnd · stack)
  | .awaitEmbeddedEnd value stack, .endObject => some (.complete value stack)
  | .complete value stack, token => afterValue value stack token
  | _, _ => none

def run (read? : String → Option Json) : Progress → List Token → Option Progress :=
  List.foldlM (step read?)

/-- The value that has been read, if nothing is open. -/
def result? : Progress → Option Json
  | .complete value [] => some value
  | _ => none

end Progress

/-- The tree of a text that is one JSON value. A text embedded in another one is shorter. -/
def parse? (s : String) : Option Json := do
  let tokens ← Token.lex s.toList
  let read? := fun inner => if _h : inner.length < s.length then parse? inner else none
  let progress ← Progress.run read? (.awaitValue []) tokens
  progress.result?
termination_by s.length

/-- The members of a text that is one JSON object, whatever its first key. -/
def parseMembers? (s : String) : Option (List (String × Json)) := do
  match ← Token.lex s.toList with
  | [.beginObject, .endObject] => some []
  | .beginObject :: tokens =>
    match (← Progress.run parse? (.awaitKey [] []) tokens).result? with
    | some (.object members) => some members
    | _ => none
  | _ => none

/-- The tree of a text given by its UTF-8 bytes. -/
def ofUtf8? (bytes : ByteArray) : Option Json := do
  let s ← String.fromUTF8? bytes
  parse? s

end HeadUnit.Json
