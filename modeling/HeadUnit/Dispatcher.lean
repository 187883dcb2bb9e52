import HeadUnit.Message

/-!
# Dispatching messages

A dispatcher holds at most one handler for each function and kind. A handler takes notes of what
it did and answers with a reply, with nothing, or with an error.

## Main definitions

* `Handler`, `Handler.typed` — a handler of envelopes, and one of the messages of a type.
* `Dispatcher.register`, `Dispatcher.dispatch` — the latest handler of a function and kind gets
  the message.
-/

namespace HeadUnit

/-- What a handler is told about the message at hand. -/
structure Context where
  version : Version
  correlation : Option UInt32
deriving DecidableEq, Repr

/-- What a handler did: its notes, in order, and its answer. -/
structure Outcome (ν : Type) where
  notes : List ν
  answer : Except Error (Option Envelope)

/-- Answer without taking notes. -/
def Outcome.fail {ν : Type} (error : Error) : Outcome ν :=
  ⟨[], .error error⟩

structure Handler (ν : Type) where
  function : FunctionName
  kind : MessageKind
  handle : Context → Envelope → Outcome ν

variable {ν : Type}

namespace Handler

/-- A handler of the messages of type `m`. Any other envelope is an error. -/
def typed (m : MessageType) (f : Context → m.Message → Outcome ν) : Handler ν where
  function := m.function
  kind := m.kind
  handle context e :=
    match m.ofEnvelope? context.version e with
    | some message => f context message
    | none => .fail (.badRequest (.wrongHandler e.kind e.name))

/-- Whether this is the handler of a function and kind. -/
def serves (h : Handler ν) (function : FunctionName) (kind : MessageKind) : Bool :=
  h.function == function && h.kind == kind

end Handler

/-- Handlers, no two of them for the same function and kind. -/
structure Dispatcher (ν : Type) where
  handlers : List (Handler ν)

namespace Dispatcher

def empty : Dispatcher ν := ⟨[]⟩

/-- Add a handler in the place of the one for its function and kind. -/
def register (d : Dispatcher ν) (h : Handler ν) : Dispatcher ν :=
  ⟨h :: d.handlers.filter fun other => !other.serves h.function h.kind⟩

/-- The functions and kinds that have a handler. -/
def registered (d : Dispatcher ν) : List (FunctionName × MessageKind) :=
  d.handlers.map fun h => (h.function, h.kind)

def handler? (d : Dispatcher ν) (function : FunctionName) (kind : MessageKind) :
    Option (Handler ν) :=
  d.handlers.find? (·.serves function kind)

/-- Hand a message to the handler of its function and kind. -/
def dispatch (d : Dispatcher ν) (v : Version) (e : Envelope) : Outcome ν :=
  match FunctionName.ofWireName? v e.name with
  | none => .fail (.badRequest (.unknownFunction e.name))
  | some function =>
    match d.handler? function e.kind with
    | none => .fail (.badRequest (.noHandler e.kind e.name))
    | some h => h.handle ⟨v, e.correlation⟩ e

end Dispatcher

end HeadUnit
