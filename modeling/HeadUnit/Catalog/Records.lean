import HeadUnit.Catalog.Vocabularies
import HeadUnit.WireType

/-!
# Records of the catalog

Structures that parameters hold inside other structures or lists.
-/

namespace HeadUnit.Catalog

/-- A member whose key is the same at every version. -/
abbrev member (label id key : String) (type : WireType) (rest : Layout) : Layout :=
  .cons label ⟨id, .fixed key⟩ type rest

/-- State of the head lamps. -/
def headLampStatus : WireType :=
  .record "HeadLampStatus" <|
    member "ambient_light_sensor_status" "head_lamp_status.ambient_light_sensor_status"
      "ambientLightSensorStatus" (.word ambientLightStatus) <|
    member "high_beams_on" "head_lamp_status.high_beams_on" "highBeamsOn" .bool <|
    member "low_beams_on" "head_lamp_status.low_beams_on" "lowBeamsOn" .bool .nil

/-- Width and height of an image. -/
def imageResolution : WireType :=
  .record "ImageResolution" <|
    member "resolution_width" "image_resolution.width" "resolutionWidth" .uint32 <|
    member "resolution_height" "image_resolution.height" "resolutionHeight" .uint32 .nil

/-- A place for images, with the files that it takes and its own resolution. -/
def imageField : WireType :=
  .record "ImageField" <|
    member "name" "image_field.name" "name" (.word imageFieldName) <|
    member "image_type_supported" "image_field.image_type_supported" "imageTypeSupported"
      (.list (.word fileType)) <|
    member "image_resolution" "image_field.image_resolution" "imageResolution"
      imageResolution .nil

/-- How far the vehicle gets on one fuel, in kilometres. -/
def fuelRange : WireType :=
  .record "FuelRange" <|
    member "fuel_type" "fuel_range.type" "type" (.word fuelType) <|
    member "range" "fuel_range.range" "range" .float .nil

/-- Every record of the catalog. -/
def records : List WireType :=
  [headLampStatus, imageResolution, imageField, fuelRange]

end HeadUnit.Catalog
