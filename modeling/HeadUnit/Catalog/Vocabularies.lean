import HeadUnit.Vocabulary

/-!
# Vocabularies of the catalog

The enumerations that fields of messages draw from, each with the names of its words on the wire.
-/

namespace HeadUnit.Catalog

/-- Buttons of the head unit. -/
def buttonName : Vocabulary where
  name := "ButtonName"
  words := [
    ("Ok", "OK"),
    ("SeekLeft", "SEEKLEFT"),
    ("SeekRight", "SEEKRIGHT"),
    ("TuneUp", "TUNEUP"),
    ("TuneDown", "TUNEDOWN"),
    ("Preset0", "PRESET_0"),
    ("Preset1", "PRESET_1"),
    ("Preset2", "PRESET_2"),
    ("Preset3", "PRESET_3"),
    ("Preset4", "PRESET_4"),
    ("Preset5", "PRESET_5"),
    ("Preset6", "PRESET_6"),
    ("Preset7", "PRESET_7"),
    ("Preset8", "PRESET_8"),
    ("Preset9", "PRESET_9"),
    ("CustomButton", "CUSTOM_BUTTON"),
    ("Search", "SEARCH")]

/-- How long a button was held. -/
def buttonPressMode : Vocabulary where
  name := "ButtonPressMode"
  words := [
    ("Long", "LONG"),
    ("Short", "SHORT")]

/-- The outcome that a response carries. -/
def resultCode : Vocabulary where
  name := "ResultCode"
  words := [
    ("Success", "SUCCESS"),
    ("InvalidData", "INVALID_DATA"),
    ("UnsupportedRequest", "UNSUPPORTED_REQUEST"),
    ("OutOfMemory", "OUT_OF_MEMORY"),
    ("TooManyPendingRequests", "TOO_MANY_PENDING_REQUESTS"),
    ("InvalidId", "INVALID_ID"),
    ("DuplicateName", "DUPLICATE_NAME"),
    ("TooManyApplications", "TOO_MANY_APPLICATIONS"),
    ("ApplicationRegisteredAlready", "APPLICATION_REGISTERED_ALREADY"),
    ("UnsupportedVersion", "UNSUPPORTED_VERSION"),
    ("WrongLanguage", "WRONG_LANGUAGE"),
    ("ApplicationNotRegistered", "APPLICATION_NOT_REGISTERED"),
    ("InUse", "IN_USE"),
    ("VehicleDataNotAllowed", "VEHICLE_DATA_NOT_ALLOWED"),
    ("VehicleDataNotAvailable", "VEHICLE_DATA_NOT_AVAILABLE"),
    ("Rejected", "REJECTED"),
    ("Aborted", "ABORTED"),
    ("Ignored", "IGNORED"),
    ("UnsupportedResource", "UNSUPPORTED_RESOURCE"),
    ("FileNotFound", "FILE_NOT_FOUND"),
    ("GenericError", "GENERIC_ERROR"),
    ("Disallowed", "DISALLOWED"),
    ("UserDisallowed", "USER_DISALLOWED"),
    ("TimedOut", "TIMED_OUT"),
    ("CancelRoute", "CANCEL_ROUTE"),
    ("TruncatedData", "TRUNCATED_DATA"),
    ("Retry", "RETRY"),
    ("Warnings", "WARNINGS"),
    ("Saved", "SAVED"),
    ("InvalidCert", "INVALID_CERT"),
    ("ExpiredCert", "EXPIRED_CERT"),
    ("ResumeFailed", "RESUME_FAILED")]

/-- What a system request is for. -/
def requestType : Vocabulary where
  name := "RequestType"
  words := [
    ("Http", "HTTP"),
    ("FileResume", "FILE_RESUME"),
    ("AuthRequest", "AUTH_REQUEST"),
    ("AuthChallenge", "AUTH_CHALLENGE"),
    ("AuthAck", "AUTH_ACK"),
    ("Proprietary", "PROPRIETARY")]

/-- What happens when a soft button is chosen. -/
def systemAction : Vocabulary where
  name := "SystemAction"
  words := [
    ("DefaultAction", "DEFAULT_ACTION"),
    ("StealFocus", "STEAL_FOCUS"),
    ("KeepContext", "KEEP_CONTEXT")]

/-- Whether a device is on. -/
def vehicleDataStatus : Vocabulary where
  name := "VehicleDataStatus"
  words := [
    ("NoDataExists", "NO_DATA_EXISTS"),
    ("Off", "OFF"),
    ("On", "ON")]

/-- Positions of the gear selector. -/
def prndl : Vocabulary where
  name := "Prndl"
  words := [
    ("Park", "PARK"),
    ("Reverse", "REVERSE"),
    ("Neutral", "NEUTRAL"),
    ("Drive", "DRIVE"),
    ("Sport", "SPORT"),
    ("LowGear", "LOWGEAR"),
    ("First", "FIRST"),
    ("Second", "SECOND"),
    ("Third", "THIRD"),
    ("Fourth", "FOURTH"),
    ("Fifth", "FIFTH"),
    ("Sixth", "SIXTH"),
    ("Seventh", "SEVENTH"),
    ("Eighth", "EIGHTH"),
    ("Unknown", "UNKNOWN"),
    ("Fault", "FAULT")]

/-- How full a tank is. -/
def componentVolumeStatus : Vocabulary where
  name := "ComponentVolumeStatus"
  words := [
    ("Unknown", "UNKNOWN"),
    ("Normal", "NORMAL"),
    ("Low", "LOW"),
    ("Fault", "FAULT"),
    ("Alert", "ALERT"),
    ("NotSupported", "NOT_SUPPORTED")]

/-- What the light sensor sees. -/
def ambientLightStatus : Vocabulary where
  name := "AmbientLightStatus"
  words := [
    ("Night", "NIGHT"),
    ("Twilight1", "TWILIGHT_1"),
    ("Twilight2", "TWILIGHT_2"),
    ("Twilight3", "TWILIGHT_3"),
    ("Twilight4", "TWILIGHT_4"),
    ("Day", "DAY"),
    ("Unknown", "UNKNOWN"),
    ("Invalid", "INVALID")]

/-- Whether something is happening. -/
def vehicleDataEventStatus : Vocabulary where
  name := "VehicleDataEventStatus"
  words := [
    ("NoEvent", "NO_EVENT"),
    ("No", "NO"),
    ("Yes", "YES"),
    ("NotSupported", "NOT_SUPPORTED"),
    ("Fault", "FAULT")]

/-- What the wipers do. -/
def wiperStatus : Vocabulary where
  name := "WiperStatus"
  words := [
    ("Off", "OFF"),
    ("AutoOff", "AUTO_OFF"),
    ("OffMoving", "OFF_MOVING"),
    ("ManIntOff", "MAN_INT_OFF"),
    ("ManIntOn", "MAN_INT_ON"),
    ("ManLow", "MAN_LOW"),
    ("ManHigh", "MAN_HIGH"),
    ("ManFlick", "MAN_FLICK"),
    ("Wash", "WASH"),
    ("AutoLow", "AUTO_LOW"),
    ("AutoHigh", "AUTO_HIGH"),
    ("CourtesyWipe", "COURTESYWIPE"),
    ("AutoAdjust", "AUTO_ADJUST"),
    ("Stalled", "STALLED"),
    ("NoDataExists", "NO_DATA_EXISTS")]
  renamings := [⟨⟨11, by decide⟩, .since 5, "COURTESY_WIPE"⟩]

/-- Kinds of files. -/
def fileType : Vocabulary where
  name := "FileType"
  words := [
    ("GraphicBmp", "GRAPHIC_BMP"),
    ("GraphicJpeg", "GRAPHIC_JPEG"),
    ("GraphicPng", "GRAPHIC_PNG"),
    ("AudioWave", "AUDIO_WAVE"),
    ("AudioMp3", "AUDIO_MP3"),
    ("AudioAac", "AUDIO_AAC"),
    ("Binary", "BINARY"),
    ("Json", "JSON")]

/-- Places where a head unit can show an image. -/
def imageFieldName : Vocabulary where
  name := "ImageFieldName"
  words := [
    ("SoftButtonImage", "softButtonImage"),
    ("ChoiceImage", "choiceImage"),
    ("ChoiceSecondaryImage", "choiceSecondaryImage"),
    ("VrHelpItem", "vrHelpItem"),
    ("TurnIcon", "turnIcon"),
    ("MenuIcon", "menuIcon"),
    ("CmdIcon", "cmdIcon"),
    ("AppIcon", "appIcon"),
    ("Graphic", "graphic"),
    ("ShowConstantTbtIcon", "showConstantTBTIcon"),
    ("ShowConstantTbtNextTurnIcon", "showConstantTBTNextTurnIcon")]

/-- What an engine burns. -/
def fuelType : Vocabulary where
  name := "FuelType"
  words := [
    ("Gasoline", "GASOLINE"),
    ("Diesel", "DIESEL"),
    ("Cng", "CNG"),
    ("Lpg", "LPG"),
    ("Hydrogen", "HYDROGEN"),
    ("Battery", "BATTERY")]

/-- Every vocabulary of the catalog. -/
def vocabularies : List Vocabulary :=
  [buttonName, buttonPressMode, resultCode, requestType, systemAction, vehicleDataStatus,
    prndl, componentVolumeStatus, ambientLightStatus, vehicleDataEventStatus, wiperStatus,
    fileType, imageFieldName, fuelType]

namespace ResultCode

def success : resultCode.Word := ⟨0, by decide⟩

def invalidData : resultCode.Word := ⟨1, by decide⟩

end ResultCode

end HeadUnit.Catalog
