import HeadUnit.Error
import HeadUnit.Json.Reader
import HeadUnit.Params

/-!
# Envelopes

On the wire a message is an object with one tagged member, whose tag is the message's kind and
whose body has a name, a correlation identifier and parameters. Exactly one tag has to be there
and its body has to be an object; inside the body everything is optional.

## Main definitions

* `Envelope`, `Envelope.make` — a message of any function.
* `Envelope.decode`, `Envelope.encode` — from and to a JSON tree.
* `Envelope.decodeBytes`, `Envelope.encodeBytes` — from and to the bytes of a frame.
-/

namespace HeadUnit

structure Envelope where
  kind : MessageKind
  name : String
  correlation : Option UInt32
  params : Params
deriving DecidableEq

namespace Envelope

/-- A message to send; a notification takes no correlation identifier. -/
def make (kind : MessageKind) (name : String) (correlation : Option UInt32) (params : Params) :
    Envelope :=
  ⟨kind, name, if kind.isCorrelated then correlation else none, params⟩

def request (name : String) (correlation : UInt32) (params : Params) : Envelope :=
  ⟨.request, name, some correlation, params⟩

def response (name : String) (correlation : UInt32) (params : Params) : Envelope :=
  ⟨.response, name, some correlation, params⟩

def notification (name : String) (params : Params) : Envelope :=
  ⟨.notification, name, none, params⟩

/-! ## Decoding -/

/-- The kinds whose tags an object has, in the order of the tags. -/
def tags (members : Members Json) : List MessageKind :=
  [.notification, .request, .response].filter fun kind => Members.contains kind.tag members

/-- The text of the body's name, empty if there is none. -/
def readName (body : Members Json) : String :=
  match Members.get? "name" body with
  | some (.string s) => s
  | _ => ""

/-- The body's correlation identifier, if it is an integer of thirty-two unsigned bits. -/
def readCorrelation (body : Members Json) : Option UInt32 :=
  match Members.get? "correlationID" body with
  | some (.integer n _ _) => if 0 ≤ n ∧ n < 0x100000000 then some (.ofNat n.toNat) else none
  | _ => none

def readParams (body : Members Json) : Params :=
  match Members.get? "parameters" body with
  | some json => .ofJson json
  | none => .empty

/-- The message of a tree. -/
def decode (tree : Json) : Except Error Envelope :=
  match tree.members? with
  | none => .error (.malformedEnvelope (.notObject tree.shape))
  | some members =>
    match tags members with
    | [] => .error (.malformedEnvelope .noTag)
    | first :: second :: _ => .error (.malformedEnvelope (.twoTags first second))
    | [kind] =>
      match (Members.get? kind.tag members).bind Json.members? with
      | none => .error (.malformedEnvelope (.bodyNotObject kind))
      | some body => .ok ⟨kind, readName body, readCorrelation body, readParams body⟩

/-- The message of a frame. -/
def decodeBytes (frame : ByteArray) : Except Error Envelope :=
  match Json.ofUtf8? frame with
  | none => .error (.malformedEnvelope .notJson)
  | some tree => decode tree

/-! ## Encoding -/

/-- The correlation identifier that is sent. -/
def sentCorrelation (e : Envelope) : Option UInt32 :=
  if e.kind.isCorrelated then e.correlation else none

/-- The body's members in key order. -/
def body (e : Envelope) : Members Json :=
  let correlation := match e.sentCorrelation with
    | some n => [("correlationID", Json.ofInt n.toNat)]
    | none => []
  correlation ++ [("name", .string e.name), ("parameters", e.params.toJson)]

/-- The tree of a message. -/
def encode (e : Envelope) : Json :=
  .object [(e.kind.tag, .object e.body)]

/-- The text of a message. -/
def encodeText (e : Envelope) : String :=
  e.encode.render

/-- The frame of a message. -/
def encodeBytes (e : Envelope) : ByteArray :=
  e.encodeText.toUTF8

end Envelope

end HeadUnit
