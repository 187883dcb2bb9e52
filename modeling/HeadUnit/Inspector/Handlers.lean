import HeadUnit.Inspector.Event

/-!
# Handlers of the inspector

Every known message is told as an event. A request to delete a command is answered: it succeeds
if it names the command.

## Main definitions

* `Inspector.dispatcher` — the handlers of the inspector.
-/

namespace HeadUnit.Inspector

open Catalog

/-- What happened to a request to delete a command. -/
def deletion (command : Option UInt32) : deleteCommandResponse.Message :=
  DeleteCommandResponse.of (some command.isSome)
    (some (if command.isSome then ResultCode.success else ResultCode.invalidData)) none

def onDeleteCommand : Handler Event :=
  .typed deleteCommand fun context message =>
    let command := DeleteCommand.commandId message
    let reply := deleteCommandResponse.toEnvelope context.version context.correlation
      (deletion command)
    ⟨[.deleteCommand command context.correlation], .ok (some reply)⟩

def onDeleteCommandResponse : Handler Event :=
  .typed deleteCommandResponse fun context message =>
    ⟨[.deleteCommandResponse (DeleteCommandResponse.success message)
      (DeleteCommandResponse.result message) context.correlation], .ok none⟩

def onSystemRequest : Handler Event :=
  .typed systemRequest fun context message =>
    let lines := ((SystemRequest.data message).getD []).length
    ⟨[.systemRequest (SystemRequest.fileName message) (SystemRequest.purpose message) lines
      context.correlation], .ok none⟩

def onButtonPressed : Handler Event :=
  .typed onButtonPress fun _ message =>
    ⟨[.buttonPress (OnButtonPress.button message) (OnButtonPress.mode message)
      (OnButtonPress.customId message)], .ok none⟩

/-- The fields of a telemetry message, and the keys that belong to none. -/
def telemetryEvents (message : onVehicleData.Message) : List Event :=
  let unregistered := message.unregisteredKeys
  message.resolved.map (fun (id, value) => .vehicleDatum id value) ++
    if unregistered.isEmpty then [] else [.unregisteredKeys unregistered]

def onTelemetry : Handler Event :=
  .typed onVehicleData fun _ message => ⟨telemetryEvents message, .ok none⟩

def handlers : List (Handler Event) :=
  [onDeleteCommand, onDeleteCommandResponse, onSystemRequest, onButtonPressed, onTelemetry]

/-- A dispatcher with every handler. -/
def dispatcher : Dispatcher Event :=
  handlers.foldl .register .empty

end HeadUnit.Inspector
