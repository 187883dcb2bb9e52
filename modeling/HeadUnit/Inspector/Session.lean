import HeadUnit.Config.Reader
import HeadUnit.Frame
import HeadUnit.Inspector.Handlers
import HeadUnit.Text.Lines

/-!
# Sessions of the inspector

A session reads one frame from each line of its input and answers with at most one frame for
each. Blank lines are no frames. The input ends at a line that is no text.

## Main definitions

* `Inspector.Session.process` — what is done with a frame.
* `Inspector.Session.run` — what is done with the lines of the input.
* `Inspector.run` — a session from its configuration to the end of its input.
-/

namespace HeadUnit.Inspector

/-- The events of a piece of work, in order, and the frames sent. -/
structure Transcript where
  events : List Event
  replies : List ByteArray

namespace Transcript

def empty : Transcript := ⟨[], []⟩

/-- A piece of work that sends nothing. -/
def silent (events : List Event) : Transcript := ⟨events, []⟩

def append (t u : Transcript) : Transcript :=
  ⟨t.events ++ u.events, t.replies ++ u.replies⟩

@[simp] theorem events_append (t u : Transcript) :
    (t.append u).events = t.events ++ u.events := rfl

@[simp] theorem replies_append (t u : Transcript) :
    (t.append u).replies = t.replies ++ u.replies := rfl

@[simp] theorem replies_empty : empty.replies = [] := rfl

@[simp] theorem replies_silent (events : List Event) : (silent events).replies = [] := rfl

end Transcript

/-- What stays the same while the input is read. -/
structure Session where
  policy : Policy
  version : Version

namespace Session

/-- Send a reply, if there is one and it is not too large. -/
def reply (s : Session) (line : Nat) : Except Error (Option Envelope) → Transcript
  | .error e => .silent [.dispatchFailed line e]
  | .ok none => .empty
  | .ok (some reply) =>
    match Frame.encode reply s.policy.frameLimit with
    | .error e => .silent [.replyFailed line e]
    | .ok frame => ⟨[], [frame]⟩

/-- Hand a message that is let in to its handler. -/
def dispatch (s : Session) (line : Nat) (received : Frame.Received) : Transcript :=
  let e := received.envelope
  let outcome := dispatcher.dispatch s.version e
  (Transcript.silent (.dispatching line received.length e.kind e.name :: outcome.notes)).append
    (s.reply line outcome.answer)

/-- Read a frame, and let its message in if the policy does. -/
def process (s : Session) (line : Nat) (frame : ByteArray) : Transcript :=
  match s.policy.checkLength frame.size with
  | some why => .silent [.frameRejected line why]
  | none =>
    match Frame.decode frame s.policy.frameLimit with
    | .error e => .silent [.decodeFailed line e]
    | .ok received =>
      let e := received.envelope
      match s.policy.checkMessage e.kind e.name with
      | some why => .silent [.messageRejected line e.kind e.name why]
      | none => s.dispatch line received

/-- What is done with a line, or nothing if it is no text and so ends the input. -/
def line? (s : Session) (number : Nat) (bytes : List UInt8) : Option Transcript :=
  let frame : ByteArray := ⟨bytes.toArray⟩
  match String.fromUTF8? frame with
  | none => none
  | some text => some (if Text.isBlankLine text then .empty else s.process number frame)

/-- What is done with the lines from the given number on. -/
def run (s : Session) (number : Nat) : List (List UInt8) → Transcript
  | [] => .empty
  | bytes :: rest =>
    match s.line? number bytes with
    | none => .silent [.inputFailed Text.notText]
    | some t => t.append (s.run (number + 1) rest)

end Session

/-! ## Startup -/

/-- Why the inspector does not start. -/
inductive Failure where
  | config (error : Error)
  | catalog (error : Error)
  | version (error : Error)
  | policy (error : Error)

def Failure.message : Failure → String
  | .config error => "config load failed: " ++ error.outline
  | .catalog error => "built-in schema invalid: " ++ error.outline
  | .version error => "protocol.version validated on load: " ++ error.outline
  | .policy error => "policy validated on load: " ++ error.outline

/-- The session of a configuration that has been read. -/
def Session.ofConfig (c : Config) : Except Failure Session := do
  Catalog.validate.mapError .catalog
  let version ← c.protocolVersion.mapError .version
  let policy ← (Policy.ofConfig c).mapError .policy
  .ok ⟨policy, version⟩

/-- The session of a configuration file. -/
def Session.ofSource (source : Except Config.SourceFault String) : Except Failure Session := do
  let config ← (Config.ofSource source).mapError .config
  Session.ofConfig config

/-- What is told when a session starts. -/
def Session.started (s : Session) (path : String) : Event :=
  .started s.version path dispatcher.registered.length

/-- A whole session: the configuration file at `path` holds `source`. -/
def run (path : String) (source : Except Config.SourceFault String) (input : List UInt8) :
    Except Failure Transcript := do
  let session ← Session.ofSource source
  .ok ((Transcript.silent [session.started path]).append (session.run 1 (Text.lines input)))

end HeadUnit.Inspector
