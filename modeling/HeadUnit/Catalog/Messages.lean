import HeadUnit.Catalog.Records
import HeadUnit.Message

/-!
# Messages with fixed parameters

Messages whose parameters are the members of a layout.
-/

namespace HeadUnit.Catalog

/-- Remove a menu command that was added before. -/
abbrev deleteCommand : MessageType where
  name := "DeleteCommand"
  function := .deleteCommand
  kind := .request
  body := .fixed <| member "cmd_id" "delete_command.cmd_id" "cmdID" .uint32 .nil

/-- The outcome of removing a menu command. -/
abbrev deleteCommandResponse : MessageType where
  name := "DeleteCommandResponse"
  function := .deleteCommand
  kind := .response
  body := .fixed <|
    member "success" "response.success" "success" .bool <|
    member "result_code" "response.result_code" "resultCode" (.word resultCode) <|
    member "info" "response.info" "info" .text .nil

/-- The driver pressed a button. The identifier belongs to custom buttons. -/
abbrev onButtonPress : MessageType where
  name := "OnButtonPress"
  function := .onButtonPress
  kind := .notification
  body := .fixed <|
    member "button_name" "on_button_press.button_name" "buttonName" (.word buttonName) <|
    member "button_press_mode" "on_button_press.button_press_mode" "buttonPressMode"
      (.word buttonPressMode) <|
    member "custom_button_id" "on_button_press.custom_button_id" "customButtonID" .uint32 .nil

/-- A payload that the head unit relays without looking at it. -/
abbrev systemRequest : MessageType where
  name := "SystemRequest"
  function := .systemRequest
  kind := .request
  body := .fixed <|
    member "file_name" "system_request.file_name" "fileName" .text <|
    member "request_type" "system_request.request_type" "requestType" (.word requestType) <|
    member "data" "system_request.data" "data" (.list .text) .nil

/-- Every message type with fixed parameters. -/
def fixedMessages : List MessageType :=
  [deleteCommand, deleteCommandResponse, onButtonPress, systemRequest]

/-! ## Parts of messages -/

namespace DeleteCommand

def commandId (m : deleteCommand.Message) : Option UInt32 := m.1

end DeleteCommand

namespace DeleteCommandResponse

def of (success : Option Bool) (result : Option resultCode.Word) (info : Option String) :
    deleteCommandResponse.Message :=
  (success, result, info, ())

def success (m : deleteCommandResponse.Message) : Option Bool := m.1

def result (m : deleteCommandResponse.Message) : Option resultCode.Word := m.2.1

def info (m : deleteCommandResponse.Message) : Option String := m.2.2.1

end DeleteCommandResponse

namespace OnButtonPress

def button (m : onButtonPress.Message) : Option buttonName.Word := m.1

def mode (m : onButtonPress.Message) : Option buttonPressMode.Word := m.2.1

def customId (m : onButtonPress.Message) : Option UInt32 := m.2.2.1

end OnButtonPress

namespace SystemRequest

def fileName (m : systemRequest.Message) : Option String := m.1

def purpose (m : systemRequest.Message) : Option requestType.Word := m.2.1

def data (m : systemRequest.Message) : Option (List String) := m.2.2.1

end SystemRequest

end HeadUnit.Catalog
