import HeadUnit.Allowlist

/-!
# Configuration

What the host is told at startup: the protocol versions, the greatest frame, and the messages
that it lets pass.

## Main definitions

* `Config` — a configuration as read, with its defaults.
* `Config.validate` — refuses numbers out of range and rules that do not read.
-/

namespace HeadUnit

structure Config where
  version : UInt32
  protocol : UInt8 := 5
  leastProtocol : UInt8 := 1
  frameLimit : Nat := 131072
  allow : List String := []
deriving DecidableEq, Repr

namespace Config

/-- The only version of the configuration's own format. -/
def formatVersion : UInt32 := 1

def leastFrameLimit : Nat := 256

/-- Sixteen mebibytes. -/
def greatestFrameLimit : Nat := 16777216

/-- The agreed protocol version. -/
def protocolVersion (c : Config) : Except Error Version :=
  Version.ofNumber c.protocol

/-- The oldest protocol version that a peer may have. -/
def leastProtocolVersion (c : Config) : Except Error Version :=
  Version.ofNumber c.leastProtocol

def rules (c : Config) : Except Error Allowlist :=
  Allowlist.ofTexts c.allow

def checkFormat (c : Config) : Except Error Unit :=
  if c.version = formatVersion then .ok ()
  else .error (.badRequest (.configVersion c.version.toNat))

/-- Both versions have to be supported and in order. -/
def checkProtocol (c : Config) : Except Error Unit := do
  let version ← c.protocolVersion
  let least ← c.leastProtocolVersion
  if version.number < least.number then .error (.badRequest .versionsReversed)

def checkFrameLimit (c : Config) : Except Error Unit :=
  if leastFrameLimit ≤ c.frameLimit ∧ c.frameLimit ≤ greatestFrameLimit then .ok ()
  else .error (.badRequest (.frameLimit leastFrameLimit greatestFrameLimit))

/-- The first fault of a configuration. -/
def validate (c : Config) : Except Error Unit := do
  c.checkFormat
  c.checkProtocol
  c.checkFrameLimit
  let _ ← c.rules

end Config

end HeadUnit
