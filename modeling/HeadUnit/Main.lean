import HeadUnit.Inspector.Session

/-!
# The inspector's command line

The only argument is the path of the configuration, `sdlrpc.yaml` if there is none. Frames come
from standard input, one in each line; replies go to standard output and events to standard
error. An environment variable names the least grave level that is told.
-/

namespace HeadUnit.Inspector

/-- The file at `path` as text. -/
def readSource (path : String) : IO (Except Config.SourceFault String) := do
  try
    let bytes ← IO.FS.readBinFile path
    match String.fromUTF8? bytes with
    | some text => return .ok text
    | none => return .error .notText
  catch
    | .noFileOrDirectory .. => return .error .missing
    | .inappropriateType .. => return .error .directory
    | e => return .error (.other (toString e))

/-- The level that the environment asks for, in letters of either case; grave events only if it
asks for none. -/
def levelOf (asked : Option String) : Option Level :=
  match asked.map String.toLower with
  | none => some .error
  | some "off" => none
  | some "trace" => some .debug
  | some name => some ((Level.ofName? name).getD .error)

/-- Tell the events that the level admits. -/
def tell (level : Option Level) (events : List Event) : IO Unit := do
  for e in events do
    if level.any (·.admits e.level) then IO.eprintln e.line

/-- Read up to the end of a line; nothing at the end of the input. -/
partial def readLine (stream : IO.FS.Stream) (begun : ByteArray) : IO ByteArray := do
  let next ← stream.read 1
  let line := begun ++ next
  if next.isEmpty || next.toList == [10] then return line
  readLine stream line

/-- Work through the lines of the input from the given number on. -/
partial def serve (session : Session) (level : Option Level) (number : Nat) : IO Unit := do
  let input ← IO.getStdin
  let output ← IO.getStdout
  let bytes ← readLine input .empty
  match Text.lines bytes.toList with
  | [] => return
  | line :: _ =>
    match session.line? number line with
    | none => tell level [.inputFailed Text.notText]
    | some transcript =>
      tell level transcript.events
      try
        for frame in transcript.replies do
          output.write (frame.push 10)
        output.flush
      catch e => return ← tell level [.outputFailed (toString e)]
      serve session level (number + 1)

end HeadUnit.Inspector

open HeadUnit.Inspector in
/-- The exit code is 101 if the session does not start. -/
def main (arguments : List String) : IO UInt32 := do
  let path := arguments.head?.getD "sdlrpc.yaml"
  let level := levelOf (← IO.getEnv "RUST_LOG")
  match Session.ofSource (← readSource path) with
  | .error failure =>
    IO.eprintln failure.message
    return 101
  | .ok session =>
    tell level [session.started path]
    serve session level 1
    return 0
