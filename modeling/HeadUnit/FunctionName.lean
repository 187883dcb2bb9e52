import HeadUnit.Vocabulary

/-!
# Functions

The functions that messages call, by their names on the wire.
-/

namespace HeadUnit

/-- The names of functions. `EncodedSyncPData` is an old carrier that `SystemRequest` replaces;
it is still known. -/
def functions : Vocabulary where
  name := "FunctionId"
  words := [
    ("RegisterAppInterface", "RegisterAppInterface"),
    ("UnregisterAppInterface", "UnregisterAppInterface"),
    ("AddCommand", "AddCommand"),
    ("DeleteCommand", "DeleteCommand"),
    ("SubscribeVehicleData", "SubscribeVehicleData"),
    ("GetVehicleData", "GetVehicleData"),
    ("EncodedSyncPData", "EncodedSyncPData"),
    ("SystemRequest", "SystemRequest"),
    ("GenericResponse", "GenericResponse"),
    ("OnHmiStatus", "OnHMIStatus"),
    ("OnButtonPress", "OnButtonPress"),
    ("OnVehicleData", "OnVehicleData")]

/-- A known function. -/
abbrev FunctionName := functions.Word

namespace FunctionName

def deleteCommand : FunctionName := ⟨3, by decide⟩

def systemRequest : FunctionName := ⟨7, by decide⟩

def onButtonPress : FunctionName := ⟨10, by decide⟩

def onVehicleData : FunctionName := ⟨11, by decide⟩

def label (f : FunctionName) : String :=
  functions.label f

def wireName (f : FunctionName) (v : Version) : String :=
  functions.wireName v f

/-- The function that `name` names at `v`. -/
def ofWireName? (v : Version) (name : String) : Option FunctionName :=
  functions.ofWireName? v name

end FunctionName

end HeadUnit
