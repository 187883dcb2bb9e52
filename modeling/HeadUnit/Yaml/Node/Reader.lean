import HeadUnit.Yaml.Node
import HeadUnit.Yaml.Token.Lexer

/-!
# The tree of a YAML text

## Main definitions

* `Yaml.Reader` — the tokens that are left, and the names and handles that are known.
* `Yaml.document?` — the only document of a text.
-/

namespace HeadUnit.Yaml

/-- The tokens that are left. Names stand for the numbers of nodes, and handles for the beginnings
of tags; `numbered` are the nodes with numbers in the order in which they begin. -/
structure Reader where
  tokens : List Token
  names : List (String × Nat)
  numbered : Array (Nat × Node)
  handles : List (String × Tag)

namespace Reader

def rest (r : Reader) (tokens : List Token) : Reader :=
  { r with tokens := tokens }

/-- Before a node with a name. Its number counts the names that are known, so a name that is given
again leaves its number to be given again too. -/
def beginNamed (r : Reader) : (name : Option String) → Reader
  | some name =>
    let number := r.names.length
    { r with
      names := (name, number) :: r.names.filter (·.1 != name)
      numbered := r.numbered.push (number, .nothing none) }
  | none => r

/-- Behind a node with a name, the one at `position` among those with numbers. -/
def endNamed (r : Reader) (name : Option String) (position : Nat) (node : Node) : Reader :=
  if name.isSome then
    { r with numbered := r.numbered.modify position fun (number, _) => (number, node) }
  else r

/-- The tag of a handle and a suffix. A handle that is not known is an error. -/
def tag? (r : Reader) (handle : String) (suffix : Tag) : Option Tag :=
  if handle = "" then some suffix else (r.handles.lookup handle).map (· ++ suffix)

/-- The name and the tag in front of a node, in either order. -/
def properties? (r : Reader) : Option (Option String × Option Tag × Reader) :=
  match r.tokens with
  | .anchor name :: .tag handle suffix :: tokens
  | .tag handle suffix :: .anchor name :: tokens =>
    (r.tag? handle suffix).map fun tag => (some name, some tag, r.rest tokens)
  | .anchor name :: tokens => some (some name, none, r.rest tokens)
  | .tag handle suffix :: tokens =>
    (r.tag? handle suffix).map fun tag => (none, some tag, r.rest tokens)
  | _ => some (none, none, r)

/-- Whether a block mapping goes on here without a node. -/
def lacksMemberNode : List Token → Bool
  | .key :: _ | .value :: _ | .endBlock :: _ => true
  | _ => false

/-- Whether a block sequence goes on here without a node. -/
def lacksItemNode : List Token → Bool
  | .entry :: _ | .endBlock :: _ => true
  | _ => false

/-- Whether a flow sequence goes on here without a node. -/
def lacksFlowItemNode : List Token → Bool
  | .comma :: _ | .endFlowSequence :: _ => true
  | _ => false

/-- Whether a flow mapping goes on here without a node. -/
def lacksFlowMemberNode : List Token → Bool
  | .comma :: _ | .endFlowMapping :: _ => true
  | _ => false

def lacksFlowKeyNode (tokens : List Token) : Bool :=
  tokens.head? == some .value || lacksFlowMemberNode tokens

/-- Behind an item of a flow collection comes a comma or the end. -/
def nextFlow? (first : Bool) : List Token → Option (List Token)
  | .comma :: tokens => if first then none else some tokens
  | tokens => if first then some tokens else none

mutual

/-- The node at the front. Block collections may start only where `block` says so; behind a key a
block sequence may stand without further indentation. -/
def node? : (fuel : Nat) → (block unindented : Bool) → Reader → Option (Node × Reader)
  | 0, _, _, _ => none
  | fuel + 1, block, unindented, r =>
    match r.tokens with
    | .alias name :: tokens =>
      (r.names.lookup name).map fun number => (.alias number, r.rest tokens)
    | _ => do
      let (name, tag, r) ← r.properties?
      let position := r.numbered.size
      let r := r.beginNamed name
      let (node, r) ← content? fuel block unindented (name.isSome || tag.isSome) tag r
      some (node, r.endNamed name position node)

/-- The node behind its properties. -/
def content? : (fuel : Nat) → (block unindented hasProperties : Bool) → (tag : Option Tag) →
    Reader → Option (Node × Reader)
  | 0, _, _, _, _, _ => none
  | fuel + 1, block, unindented, hasProperties, tag, r =>
    let given := match r.tokens with
      | .scalar style text :: tokens => some (Node.scalar style tag text, r.rest tokens)
      | .beginFlowSequence :: tokens =>
        (flowItems? fuel true (r.rest tokens)).map fun (items, r) => (.sequence items, r)
      | .beginFlowMapping :: tokens =>
        (flowMembers? fuel true (r.rest tokens)).map fun (members, r) => (.mapping members, r)
      | .entry :: _ =>
        if unindented then
          (unindentedItems? fuel r).map fun (items, r) => (.sequence items, r)
        else none
      | .beginBlockSequence :: tokens =>
        if block then (items? fuel (r.rest tokens)).map fun (items, r) => (.sequence items, r)
        else none
      | .beginBlockMapping :: tokens =>
        if block then
          (members? fuel (r.rest tokens)).map fun (members, r) => (.mapping members, r)
        else none
      | _ => none
    let opens := match r.tokens with
      | .scalar .. :: _ | .beginFlowSequence :: _ | .beginFlowMapping :: _ => true
      | .entry :: _ => unindented
      | .beginBlockSequence :: _ | .beginBlockMapping :: _ => block
      | _ => false
    if opens then given else if hasProperties then some (.nothing tag, r) else none

/-- The items of a block sequence up to its end. -/
def items? : (fuel : Nat) → Reader → Option (List Node × Reader)
  | 0, _ => none
  | fuel + 1, r =>
    match r.tokens with
    | .entry :: tokens => do
      let (item, r) ←
        if lacksItemNode tokens then some (.nothing none, r.rest tokens)
        else node? fuel true false (r.rest tokens)
      let (items, r) ← items? fuel r
      some (item :: items, r)
    | .endBlock :: tokens => some ([], r.rest tokens)
    | _ => none

/-- The items of a block sequence that is not indented further than its key. -/
def unindentedItems? : (fuel : Nat) → Reader → Option (List Node × Reader)
  | 0, _ => none
  | fuel + 1, r =>
    match r.tokens with
    | .entry :: tokens => do
      let (item, r) ←
        if lacksItemNode tokens || lacksMemberNode tokens then
          some (.nothing none, r.rest tokens)
        else node? fuel true false (r.rest tokens)
      let (items, r) ← unindentedItems? fuel r
      some (item :: items, r)
    | _ => some ([], r)

/-- The members of a block mapping up to its end. -/
def members? : (fuel : Nat) → Reader → Option (List (Node × Node) × Reader)
  | 0, _ => none
  | fuel + 1, r =>
    match r.tokens with
    | .key :: tokens => do
      let (key, r) ←
        if lacksMemberNode tokens then some (.nothing none, r.rest tokens)
        else node? fuel true true (r.rest tokens)
      let (value, r) ←
        match r.tokens with
        | .value :: tokens =>
          if lacksMemberNode tokens then some (.nothing none, r.rest tokens)
          else node? fuel true true (r.rest tokens)
        | _ => some (.nothing none, r)
      let (members, r) ← members? fuel r
      some ((key, value) :: members, r)
    | .endBlock :: tokens => some ([], r.rest tokens)
    | _ => none

/-- The items of a flow sequence up to its bracket. A key among them is a mapping of its own. -/
def flowItems? : (fuel : Nat) → (first : Bool) → Reader → Option (List Node × Reader)
  | 0, _, _ => none
  | fuel + 1, first, r =>
    match r.tokens with
    | .endFlowSequence :: tokens => some ([], r.rest tokens)
    | tokens => do
      let tokens ← nextFlow? first tokens
      match tokens with
      | .endFlowSequence :: tokens => some ([], r.rest tokens)
      | .key :: tokens =>
        let (key, r) ←
          if tokens.head? == some .value || lacksFlowItemNode tokens then
            some (.nothing none, r.rest tokens)
          else node? fuel false false (r.rest tokens)
        let (value, r) ←
          match r.tokens with
          | .value :: tokens =>
            if lacksFlowItemNode tokens then some (.nothing none, r.rest tokens)
            else node? fuel false false (r.rest tokens)
          | _ => some (.nothing none, r)
        let (items, r) ← flowItems? fuel false r
        some (.mapping [(key, value)] :: items, r)
      | _ =>
        let (item, r) ← node? fuel false false (r.rest tokens)
        let (items, r) ← flowItems? fuel false r
        some (item :: items, r)

/-- The members of a flow mapping up to its brace. -/
def flowMembers? : (fuel : Nat) → (first : Bool) → Reader →
    Option (List (Node × Node) × Reader)
  | 0, _, _ => none
  | fuel + 1, first, r =>
    match r.tokens with
    | .endFlowMapping :: tokens => some ([], r.rest tokens)
    | tokens => do
      let tokens ← nextFlow? first tokens
      match tokens with
      | .endFlowMapping :: tokens => some ([], r.rest tokens)
      | .key :: tokens =>
        let (key, r) ←
          if lacksFlowKeyNode tokens then some (.nothing none, r.rest tokens)
          else node? fuel false false (r.rest tokens)
        let (value, r) ←
          match r.tokens with
          | .value :: tokens =>
            if lacksFlowMemberNode tokens then some (.nothing none, r.rest tokens)
            else node? fuel false false (r.rest tokens)
          | _ => some (.nothing none, r)
        let (members, r) ← flowMembers? fuel false r
        some ((key, value) :: members, r)
      | _ =>
        let (key, r) ← node? fuel false false (r.rest tokens)
        let (members, r) ← flowMembers? fuel false r
        some ((key, .nothing none) :: members, r)

end

/-! ## Documents -/

/-- The handles that every document knows. -/
def knownHandles : List (String × Tag) :=
  [("!", .ofText "!"), ("!!", .ofText "tag:yaml.org,2002:")]

/-- The directives in front of a document: at most one version, and each handle once. -/
def directives? (version : Bool) (handles : List (String × Tag)) :
    List Token → Option (List (String × Tag) × List Token)
  | .versionDirective :: tokens => if version then none else directives? true handles tokens
  | .tagDirective handle address :: tokens =>
    if handles.any (·.1 == handle) then none
    else directives? version ((handle, address) :: handles) tokens
  | tokens => some (handles, tokens)

def isDirective : Token → Bool
  | .versionDirective | .tagDirective .. => true
  | _ => false

/-- Whether a document ends here without a node. -/
def lacksDocumentNode : List Token → Bool
  | [] => true
  | t :: _ => isDirective t || t == .documentStart || t == .documentEnd

/-- The node of a document behind its beginning. Every step of the reader takes a token or goes
down to one. -/
def documentNode? (explicit : Bool) (handles : List (String × Tag)) (tokens : List Token) :
    Option (Document × List Token) :=
  if explicit && lacksDocumentNode tokens then some (⟨.nothing none, []⟩, tokens)
  else
    (node? (4 * tokens.length + 4) true false ⟨tokens, [], #[], handles ++ knownHandles⟩).map
      fun (node, r) => (⟨node, r.numbered.toList.reverse⟩, r.tokens)

/-- The document at the front. -/
def oneDocument? (tokens : List Token) : Option (Document × List Token) :=
  match tokens with
  | [] => none
  | t :: _ =>
    if isDirective t || t == .documentStart then do
      let (handles, tokens) ← directives? false [] tokens
      match tokens with
      | .documentStart :: tokens => documentNode? true handles tokens
      | _ => none
    else documentNode? false [] tokens

end Reader

/-- The only document of a text; behind it may stand nothing but marks of its end. -/
def document? (s : String) : Option Document := do
  let tokens ← tokens? s
  let (document, rest) ← Reader.oneDocument? tokens
  if rest.all (· == .documentEnd) then some document else none

end HeadUnit.Yaml
