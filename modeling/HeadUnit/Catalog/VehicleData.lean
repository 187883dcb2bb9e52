import HeadUnit.Catalog.Messages

/-!
# Vehicle data

Telemetry that the head unit pushes: any part of many fields of different types, over a registry.
-/

namespace HeadUnit.Catalog

namespace VehicleData

def speed : Field .float := .fixed _ "speed" "speed"

def rpm : Field .uint32 := .fixed _ "rpm" "rpm"

def fuelLevel : Field .float := .fixed _ "fuel_level" "fuelLevel"

/-- The key lost its underscore in version 5. -/
def fuelLevelState : Field (.word componentVolumeStatus) where
  id := "fuel_level_state"
  keys := ⟨"fuelLevel_State", [⟨.since 5, "fuelLevelState"⟩]⟩

def instantFuelConsumption : Field .float :=
  .fixed _ "instant_fuel_consumption" "instantFuelConsumption"

def externalTemperature : Field .float := .fixed _ "external_temperature" "externalTemperature"

def vin : Field .text := .fixed _ "vin" "vin"

def prndl : Field (.word prndl) := .fixed _ "prndl" "prndl"

def odometer : Field .uint32 := .fixed _ "odometer" "odometer"

def driverBraking : Field (.word vehicleDataEventStatus) :=
  .fixed _ "driver_braking" "driverBraking"

def wiperStatus : Field (.word wiperStatus) := .fixed _ "wiper_status" "wiperStatus"

def headLampStatus : Field headLampStatus := .fixed _ "head_lamp_status" "headLampStatus"

def engineTorque : Field .float := .fixed _ "engine_torque" "engineTorque"

def accPedalPosition : Field .float := .fixed _ "acc_pedal_position" "accPedalPosition"

def steeringWheelAngle : Field .float := .fixed _ "steering_wheel_angle" "steeringWheelAngle"

def fuelRange : Field (.list fuelRange) := .fixed _ "fuel_range" "fuelRange"

end VehicleData

/-- Every field that a telemetry message may carry. -/
def vehicleData : Registry where
  name := "VehicleData"
  entries := [
    VehicleData.speed.entry,
    VehicleData.rpm.entry,
    VehicleData.fuelLevel.entry,
    VehicleData.fuelLevelState.entry,
    VehicleData.instantFuelConsumption.entry,
    VehicleData.externalTemperature.entry,
    VehicleData.vin.entry,
    VehicleData.prndl.entry,
    VehicleData.odometer.entry,
    VehicleData.driverBraking.entry,
    VehicleData.wiperStatus.entry,
    VehicleData.headLampStatus.entry,
    VehicleData.engineTorque.entry,
    VehicleData.accPedalPosition.entry,
    VehicleData.steeringWheelAngle.entry,
    VehicleData.fuelRange.entry]

/-- A telemetry message. -/
abbrev onVehicleData : MessageType where
  name := "OnVehicleData"
  function := .onVehicleData
  kind := .notification
  body := .registered vehicleData

namespace OnVehicleData

/-- A message without fields, at `v`. -/
def empty (v : Version) : onVehicleData.Message :=
  Container.empty vehicleData v

end OnVehicleData

end HeadUnit.Catalog
