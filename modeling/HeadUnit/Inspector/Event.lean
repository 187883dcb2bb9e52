import HeadUnit.Catalog
import HeadUnit.Dispatcher
import HeadUnit.Policy
import HeadUnit.Text.Quoted

/-!
# Events of the inspector

What the inspector tells about its work, one line for each event.

## Main definitions

* `Inspector.Level`, `Inspector.Event` — events and how grave they are.
* `Inspector.Event.line` — the line that tells an event.
-/

namespace HeadUnit.Inspector

inductive Level where
  | error
  | warn
  | info
  | debug
deriving DecidableEq, Repr

namespace Level

def label : Level → String
  | .error => "ERROR"
  | .warn => "WARN"
  | .info => "INFO"
  | .debug => "DEBUG"

/-- How much is told from this level on. -/
def rank : Level → Nat
  | .error => 1
  | .warn => 2
  | .info => 3
  | .debug => 4

/-- Whether events of the level `other` are told at this level. -/
def admits (l other : Level) : Bool :=
  decide (other.rank ≤ l.rank)

/-- The level with a name, in lower case. -/
def ofName? : String → Option Level
  | "error" => some .error
  | "warn" => some .warn
  | "info" => some .info
  | "debug" => some .debug
  | _ => none

end Level

inductive Event where
  | started (version : Version) (config : String) (handlers : Nat)
  | inputFailed (detail : String)
  | outputFailed (detail : String)
  | frameRejected (line : Nat) (why : Rejection)
  | decodeFailed (line : Nat) (error : Error)
  | messageRejected (line : Nat) (kind : MessageKind) (function : String) (why : Rejection)
  | dispatching (line bytes : Nat) (kind : MessageKind) (function : String)
  | dispatchFailed (line : Nat) (error : Error)
  | replyFailed (line : Nat) (error : Error)
  | deleteCommand (command correlation : Option UInt32)
  | deleteCommandResponse (success : Option Bool) (result : Option Catalog.resultCode.Word)
      (correlation : Option UInt32)
  | systemRequest (file : Option String) (purpose : Option Catalog.requestType.Word)
      (dataLines : Nat) (correlation : Option UInt32)
  | buttonPress (button : Option Catalog.buttonName.Word)
      (mode : Option Catalog.buttonPressMode.Word) (customId : Option UInt32)
  | vehicleDatum (field : String) (value : Value)
  | unregisteredKeys (keys : List String)

namespace Event

def level : Event → Level
  | .started .. => .info
  | .inputFailed _ => .error
  | .outputFailed _ => .error
  | .frameRejected .. => .warn
  | .decodeFailed .. => .warn
  | .messageRejected .. => .warn
  | .dispatching .. => .debug
  | .dispatchFailed .. => .warn
  | .replyFailed .. => .error
  | .deleteCommand .. => .info
  | .deleteCommandResponse .. => .info
  | .systemRequest .. => .info
  | .buttonPress .. => .info
  | .vehicleDatum .. => .info
  | .unregisteredKeys _ => .debug

def message : Event → String
  | .started .. => "sdlrpc-inspect starting"
  | .inputFailed _ => "stdin read failed"
  | .outputFailed _ => "stdout write failed"
  | .frameRejected .. => "frame rejected"
  | .decodeFailed .. => "decode failed"
  | .messageRejected .. => "message rejected"
  | .dispatching .. => "dispatching"
  | .dispatchFailed .. => "dispatch failed"
  | .replyFailed .. => "reply encode failed"
  | .deleteCommand .. => "DeleteCommand"
  | .deleteCommandResponse .. => "DeleteCommand response"
  | .systemRequest .. => "SystemRequest"
  | .buttonPress .. => "OnButtonPress"
  | .vehicleDatum .. => "OnVehicleData"
  | .unregisteredKeys _ => "OnVehicleData carried unregistered keys"

/-! ## Parts of an event -/

def lineField (n : Nat) : String × String :=
  ("line", toString n)

def errorFields (error : Error) : List (String × String) :=
  [("code", Text.quote error.code.name), ("error", error.message)]

def rejectionFields (why : Rejection) : List (String × String) :=
  [("code", Text.quote why.code.name), ("msg", Text.quote why.message)]

def messageFields (kind : MessageKind) (function : String) : List (String × String) :=
  [("kind", Text.quote kind.tag), ("function", Text.quote function)]

def numberText : Option UInt32 → String :=
  Text.optional fun n => toString n.toNat

def wordText (table : Vocabulary) : Option table.Word → String :=
  Text.optional table.label

def correlationField (correlation : Option UInt32) : String × String :=
  ("correlation_id", numberText correlation)

/-- The named parts of an event, in order. -/
def fields : Event → List (String × String)
  | .started version config handlers =>
    [("version", version.label), ("config", config), ("handlers", toString handlers)]
  | .inputFailed detail => [("error", detail)]
  | .outputFailed detail => [("error", detail)]
  | .frameRejected line why => lineField line :: rejectionFields why
  | .decodeFailed line error => lineField line :: errorFields error
  | .messageRejected line kind function why =>
    lineField line :: messageFields kind function ++ rejectionFields why
  | .dispatching line bytes kind function =>
    lineField line :: ("bytes", toString bytes) :: messageFields kind function
  | .dispatchFailed line error => lineField line :: errorFields error
  | .replyFailed line error => lineField line :: errorFields error
  | .deleteCommand command correlation =>
    [("cmd_id", numberText command), correlationField correlation]
  | .deleteCommandResponse success result correlation =>
    [("success", Text.optional toString success),
      ("result", wordText Catalog.resultCode result), correlationField correlation]
  | .systemRequest file purpose dataLines correlation =>
    [("file_name", Text.optional Text.quote file),
      ("request_type", wordText Catalog.requestType purpose),
      ("data_lines", toString dataLines), correlationField correlation]
  | .buttonPress button mode customId =>
    [("button", wordText Catalog.buttonName button),
      ("mode", wordText Catalog.buttonPressMode mode), ("custom_id", numberText customId)]
  | .vehicleDatum field value => [("field", field), ("value", value.toJson.render)]
  | .unregisteredKeys keys => [("keys", Text.bracketed (keys.map Text.quote))]

def line (e : Event) : String :=
  e.level.label ++ " sdlrpc_inspect: " ++
    String.intercalate " " (e.message :: e.fields.map fun (name, text) => name ++ "=" ++ text)

end Event

end HeadUnit.Inspector
