import HeadUnit.MessageKind
import HeadUnit.Text.Quoted
import HeadUnit.Version

/-!
# Errors

Every failure has a code that peers may compare and a message for people. The causes that this
library finds are data; a handler of its own wording uses `detail`.

## Main definitions

* `ErrorCode` — the stable codes.
* `Error`, `Error.code`, `Error.message` — the causes, with their code and wording.
* `Error.outline` — what an error looks like when it stops the program.

## Main statements

* `Except.bind_eq_ok_iff`, `Except.forM_eq_ok_iff` — checks in a row.
-/

namespace HeadUnit

inductive ErrorCode where
  | malformedEnvelope
  | fieldTypeMismatch
  | unknownField
  | unsupportedVersion
  | schema
  | payloadTooLarge
  | badRequest
  | notAllowed
  | internal
deriving DecidableEq, Repr

namespace ErrorCode

def all : List ErrorCode :=
  [.malformedEnvelope, .fieldTypeMismatch, .unknownField, .unsupportedVersion, .schema,
    .payloadTooLarge, .badRequest, .notAllowed, .internal]

def name : ErrorCode → String
  | .malformedEnvelope => "MALFORMED_ENVELOPE"
  | .fieldTypeMismatch => "FIELD_TYPE_MISMATCH"
  | .unknownField => "UNKNOWN_FIELD"
  | .unsupportedVersion => "UNSUPPORTED_VERSION"
  | .schema => "SCHEMA"
  | .payloadTooLarge => "PAYLOAD_TOO_LARGE"
  | .badRequest => "BAD_REQUEST"
  | .notAllowed => "NOT_ALLOWED"
  | .internal => "INTERNAL"

end ErrorCode

/-- What is wrong with the outer form of a message. -/
inductive EnvelopeFault where
  | notJson
  | notObject (shape : String)
  | noTag
  | twoTags (first second : MessageKind)
  | bodyNotObject (kind : MessageKind)
  | detail (text : String)
deriving DecidableEq, Repr

namespace EnvelopeFault

def message : EnvelopeFault → String
  | .notJson => "invalid json"
  | .notObject shape => "expected object, got " ++ shape
  | .noTag => "missing request/response/notification tag"
  | .twoTags first second => "ambiguous tags `" ++ first.tag ++ "` and `" ++ second.tag ++ "`"
  | .bodyNotObject kind => "`" ++ kind.tag ++ "` is not an object"
  | .detail text => text

end EnvelopeFault

/-- What is wrong with a table of keys, fields or names. -/
inductive SchemaFault where
  | invertedRange (key : String) (range : Range)
  | overlappingRanges (key first : String) (range : Range) (second : String) (other : Range)
  | repeatedField (registry id : String)
  | sharedKey (registry key : String) (version : Version)
  | ambiguousName (vocabulary name : String) (version : Version)
  | detail (text : String)
deriving DecidableEq, Repr

namespace SchemaFault

def message : SchemaFault → String
  | .invertedRange key range => "key `" ++ key ++ "`: inverted range " ++ range.label
  | .overlappingRanges key first range second other =>
    "key `" ++ key ++ "`: overrides `" ++ first ++ "` (" ++ range.label ++ ") and `" ++ second ++
      "` (" ++ other.label ++ ") overlap"
  | .repeatedField registry id => registry ++ ": field `" ++ id ++ "` registered twice"
  | .sharedKey registry key version =>
    registry ++ ": wire key `" ++ key ++ "` used by more than one field at " ++ version.label
  | .ambiguousName vocabulary name version =>
    vocabulary ++ ": wire name `" ++ name ++ "` is ambiguous at " ++ version.label
  | .detail text => text

end SchemaFault

/-- What is wrong with a configuration or a call. -/
inductive RequestFault where
  | notYaml
  | configVersion (found : Nat)
  | versionsReversed
  | frameLimit (least greatest : Nat)
  | ruleWithoutColon (rule : String)
  | ruleKind (kind : String)
  | ruleWithoutFunction (rule : String)
  | unknownFunction (name : String)
  | noHandler (kind : MessageKind) (name : String)
  | wrongHandler (kind : MessageKind) (name : String)
  | detail (text : String)
deriving DecidableEq, Repr

namespace RequestFault

def message : RequestFault → String
  | .notYaml => "invalid yaml"
  | .configVersion found =>
    "unsupported config version " ++ toString found ++ " (expected 1)"
  | .versionsReversed => "protocol.min_version must not exceed protocol.version"
  | .frameLimit least greatest =>
    "limits.max_frame_bytes must be between " ++ toString least ++ " and " ++ toString greatest
  | .ruleWithoutColon rule =>
    "invalid policy.allow entry: " ++ rule ++ " (expected kind:function)"
  | .ruleKind kind => "invalid policy.allow kind: " ++ kind
  | .ruleWithoutFunction rule => "invalid policy.allow entry: " ++ rule ++ " (empty function)"
  | .unknownFunction name => "unknown function: " ++ Text.quote name
  | .noHandler kind name => "no handler for " ++ kind.tag ++ " " ++ name
  | .wrongHandler kind name => kind.tag ++ " " ++ name ++ " does not match handler"
  | .detail text => text

end RequestFault

/-- A failure, by its cause. -/
inductive Error where
  | malformedEnvelope (fault : EnvelopeFault)
  | fieldTypeMismatch (field expected found : String)
  | unknownField (id : String)
  | unsupportedVersion (number : UInt8)
  | schema (fault : SchemaFault)
  | payloadTooLarge (length limit : Nat)
  | badRequest (fault : RequestFault)
  | notAllowed (detail : String)
  | internal (detail : String)
deriving DecidableEq, Repr

namespace Error

def code : Error → ErrorCode
  | .malformedEnvelope _ => .malformedEnvelope
  | .fieldTypeMismatch .. => .fieldTypeMismatch
  | .unknownField _ => .unknownField
  | .unsupportedVersion _ => .unsupportedVersion
  | .schema _ => .schema
  | .payloadTooLarge .. => .payloadTooLarge
  | .badRequest _ => .badRequest
  | .notAllowed _ => .notAllowed
  | .internal _ => .internal

def message : Error → String
  | .malformedEnvelope fault => "malformed envelope: " ++ fault.message
  | .fieldTypeMismatch field expected found =>
    "field `" ++ field ++ "` is registered as " ++ expected ++ ", got " ++ found
  | .unknownField id => "unknown field: " ++ id
  | .unsupportedVersion number => "unsupported protocol version: " ++ toString number
  | .schema fault => "schema: " ++ fault.message
  | .payloadTooLarge length limit =>
    "payload too large: " ++ toString length ++ " > " ++ toString limit ++ " bytes"
  | .badRequest fault => "bad request: " ++ fault.message
  | .notAllowed detail => "not allowed: " ++ detail
  | .internal detail => "internal: " ++ detail

open Text in
/-- What the error looks like when it stops the program. -/
def outline : Error → String
  | .malformedEnvelope fault => call "MalformedEnvelope" [quote fault.message]
  | .fieldTypeMismatch field expected found =>
    parts "FieldTypeMismatch"
      [("field", quote field), ("expected", quote expected), ("found", quote found)]
  | .unknownField id => call "UnknownField" [quote id]
  | .unsupportedVersion number => call "UnsupportedVersion" [toString number]
  | .schema fault => call "Schema" [quote fault.message]
  | .payloadTooLarge length limit =>
    parts "PayloadTooLarge" [("len", toString length), ("max", toString limit)]
  | .badRequest fault => call "BadRequest" [quote fault.message]
  | .notAllowed detail => call "NotAllowed" [quote detail]
  | .internal detail => call "Internal" [quote detail]

end Error

/-- The supported version with this number, or the error that there is none. -/
def Version.ofNumber (n : UInt8) : Except Error Version :=
  match ofNumber? n with
  | some v => .ok v
  | none => .error (.unsupportedVersion n)

/-! ## Checks in a row

A check gives an error or nothing. Checks in a row stop at the first error, so they pass exactly
if each of them does. -/

namespace Except

variable {ε α : Type}

/-- Checks in a row pass if the first one and the rest do. -/
theorem bind_eq_ok_iff {check : Except ε Unit} {rest : Unit → Except ε Unit} :
    check >>= rest = .ok () ↔ check = .ok () ∧ rest () = .ok () := by
  cases check <;> simp [bind, Except.bind]

/-- Checks in a row pass if each of them does. -/
theorem forM_eq_ok_iff (check : α → Except ε Unit) (as : List α) :
    forM as check = .ok () ↔ ∀ a ∈ as, check a = .ok () := by
  induction as with
  | nil => simp [pure, Except.pure]
  | cons a rest ih => rw [List.forM_cons, List.forall_mem_cons, bind_eq_ok_iff, ih]

end Except

end HeadUnit
