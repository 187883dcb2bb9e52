import HeadUnit.Envelope

/-!
# Frames

A frame is the bytes of one message. Frames beyond a limit are refused before they are read, and
are not sent either.

## Main definitions

* `Frame.decode`, `Frame.encode` — between frames and envelopes, within a limit.
-/

namespace HeadUnit.Frame

/-- A message with the length of the frame that it came in. -/
structure Received where
  envelope : Envelope
  length : Nat

/-- The message of a frame of at most `limit` bytes. -/
def decode (frame : ByteArray) (limit : Nat) : Except Error Received :=
  if limit < frame.size then .error (.payloadTooLarge frame.size limit)
  else (Envelope.decodeBytes frame).map (⟨·, frame.size⟩)

/-- The frame of a message, if it has at most `limit` bytes. -/
def encode (e : Envelope) (limit : Nat) : Except Error ByteArray :=
  let frame := e.encodeBytes
  if limit < frame.size then .error (.payloadTooLarge frame.size limit) else .ok frame

end HeadUnit.Frame
