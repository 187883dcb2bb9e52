import HeadUnit.Catalog.Messages
import HeadUnit.Dispatcher
import HeadUnit.Proofs.Message.RoundTrip
import Mathlib.Data.List.Perm.Basic

/-!
# Routing

A run of registrations leaves a dispatcher that knows the latest handler of every function and
kind. The dispatcher finds a handler by its function and kind, and the handler checks the envelope
once more when it reads the message: both look at the same name, version and kind, so a handler
never refuses a message that the dispatcher gives it.

## Main definitions

* `TypedHandler` — a message type with a function of its messages.
* `Dispatcher.registerAll` — handlers registered one after the other.
* `latest?` — the last handler of a function and kind in a run.

## Main statements

* `Dispatcher.handler?_registerAll` — the latest handler is the one that is found.
* `Dispatcher.nodup_registered_registerAll` — a function and kind is registered once at most.
* `Dispatcher.dispatch_registerAll` — what a dispatcher makes of a message, after any run.
-/

namespace HeadUnit

variable {ν : Type} {v : Version} {e : Envelope} {function : FunctionName} {kind : MessageKind}

namespace Handler

theorem serves_iff {h : Handler ν} :
    h.serves function kind = true ↔ h.function = function ∧ h.kind = kind := by
  simp [serves]

theorem serves_comm (h other : Handler ν) :
    h.serves other.function other.kind = other.serves h.function h.kind := by
  rw [Bool.eq_iff_iff, serves_iff, serves_iff, eq_comm, @eq_comm _ h.kind]

/-! ## Typed handlers -/

section

variable {m : MessageType} {f : Context → m.Message → Outcome ν} {context : Context}

/-- A typed handler does what its function does, or refuses the envelope. -/
theorem handle_typed_cases (m : MessageType) (f : Context → m.Message → Outcome ν)
    (context : Context) (e : Envelope) :
    (∃ message, (typed m f).handle context e = f context message) ∨
      (typed m f).handle context e = .fail (.badRequest (.wrongHandler e.kind e.name)) := by
  cases hread : m.ofEnvelope? context.version e with
  | none => exact .inr (by simp only [typed, hread])
  | some message => exact .inl ⟨message, by simp only [typed, hread]⟩

theorem answer_typed_ne {reply : Envelope}
    (hf : ∀ context message, (f context message).answer = .ok none) :
    ((typed m f).handle context e).answer ≠ .ok (some reply) := by
  obtain ⟨message, h⟩ | h := handle_typed_cases m f context e
  · simp [h, hf]
  · simp [h, Outcome.fail]

theorem forall_mem_notes_typed {p : ν → Prop}
    (hf : ∀ context message, ∀ note ∈ (f context message).notes, p note) :
    ∀ note ∈ ((typed m f).handle context e).notes, p note := by
  obtain ⟨message, h⟩ | h := handle_typed_cases m f context e
  · simpa [h] using hf context message
  · simp [h, Outcome.fail]

end

end Handler

/-- A function of the messages of a type. -/
structure TypedHandler (ν : Type) where
  type : MessageType
  handle : Context → type.Message → Outcome ν

namespace TypedHandler

/-- The handler that is registered. -/
def handler (h : TypedHandler ν) : Handler ν :=
  .typed h.type h.handle

/-- The function and kind of the messages. -/
def route (h : TypedHandler ν) : FunctionName × MessageKind :=
  (h.type.function, h.type.kind)

/-- What the function makes of the message that an envelope's parameters hold. -/
def outcome (h : TypedHandler ν) (v : Version) (e : Envelope) : Outcome ν :=
  h.handle ⟨v, e.correlation⟩ (h.type.ofParams v e.params)

/-- A function of messages of any type, whatever is read from the version and the parameters. The
container of a registered type holds both, so handlers of messages with a reading of their own are
typed handlers too, and what is said of these covers them. -/
def reading {μ : Type} (function : FunctionName) (kind : MessageKind) (read : Version → Params → μ)
    (handle : Context → μ → Outcome ν) : TypedHandler ν where
  type := ⟨"", function, kind, .registered ⟨"", []⟩⟩
  handle context message := handle context (read message.version message.params)

/-- The function gets the message that its own reading finds in the envelope. -/
theorem outcome_reading {μ : Type} (function : FunctionName) (kind : MessageKind)
    (read : Version → Params → μ) (handle : Context → μ → Outcome ν) (v : Version) (e : Envelope) :
    (reading function kind read handle).outcome v e =
      handle ⟨v, e.correlation⟩ (read v e.params) :=
  rfl

theorem serves_handler_iff {h : TypedHandler ν} :
    h.handler.serves function kind = true ↔ h.route = (function, kind) := by
  rw [Handler.serves_iff, route, Prod.mk.injEq]
  rfl

/-- The type of a handler accepts the messages that the handler is found for. -/
theorem accepts_of_route {h : TypedHandler ν}
    (hname : FunctionName.ofWireName? v e.name = some function)
    (hroute : h.route = (function, e.kind)) : h.type.accepts v e = true := by
  obtain ⟨hfunction, hkind⟩ := Prod.mk.inj hroute
  simp [MessageType.accepts, hname, hfunction, hkind]

theorem ofEnvelope?_of_accepts {h : TypedHandler ν} (haccepts : h.type.accepts v e = true) :
    h.type.ofEnvelope? v e = some (h.type.ofParams v e.params) :=
  if_pos haccepts

theorem handle_handler {h : TypedHandler ν} (haccepts : h.type.accepts v e = true) :
    h.handler.handle ⟨v, e.correlation⟩ e = h.outcome v e := by
  simp only [handler, Handler.typed, ofEnvelope?_of_accepts haccepts, outcome]

end TypedHandler

namespace Dispatcher

theorem serves_of_handler? {d : Dispatcher ν} {h : Handler ν}
    (hfound : d.handler? function kind = some h) : h.serves function kind = true := by
  rw [handler?] at hfound
  simpa using List.find?_some hfound

/-- A message goes to the handler of its function and kind, or nothing is done with it. -/
theorem dispatch_cases (d : Dispatcher ν) (v : Version) (e : Envelope) :
    (∃ function h, FunctionName.ofWireName? v e.name = some function ∧
      d.handler? function e.kind = some h ∧
      d.dispatch v e = h.handle ⟨v, e.correlation⟩ e) ∨
    ∃ error, d.dispatch v e = .fail error := by
  rw [dispatch]
  cases hname : FunctionName.ofWireName? v e.name with
  | none => exact .inr ⟨_, rfl⟩
  | some function =>
    cases hfound : d.handler? function e.kind with
    | none => exact .inr ⟨.badRequest (.noHandler e.kind e.name), by simp only [hfound]⟩
    | some h => exact .inl ⟨function, h, rfl, hfound, by simp only [hfound]⟩

/-! ## One registration -/

/-- Taking out the handlers of one function and kind leaves those of another. -/
theorem find?_filter_not_serves (handlers : List (Handler ν)) {h : Handler ν}
    (hserves : h.serves function kind = false) :
    (handlers.filter fun other => !other.serves h.function h.kind).find? (·.serves function kind) =
      handlers.find? (·.serves function kind) := by
  rw [List.find?_filter]
  congr 1
  funext other
  by_cases hother : other.serves function kind = true
  · obtain ⟨rfl, rfl⟩ := Handler.serves_iff.1 hother
    rw [Handler.serves_comm] at hserves
    simp [hserves]
  · simp [hother]

/-- A registration replaces the handler of one function and kind and leaves the others. -/
theorem handler?_register (d : Dispatcher ν) (h : Handler ν) (function : FunctionName)
    (kind : MessageKind) :
    (d.register h).handler? function kind =
      if h.serves function kind then some h else d.handler? function kind := by
  cases hserves : h.serves function kind with
  | true => simp [handler?, register, hserves]
  | false =>
    have hfind := find?_filter_not_serves d.handlers hserves
    simpa [handler?, register, hserves] using hfind

theorem nodup_registered_register {d : Dispatcher ν} (hnodup : d.registered.Nodup)
    (h : Handler ν) : (d.register h).registered.Nodup := by
  have hrest : ((d.handlers.filter fun other => !other.serves h.function h.kind).map
      fun other => (other.function, other.kind)).Nodup :=
    hnodup.sublist (List.filter_sublist.map _)
  refine List.nodup_cons.2 ⟨?_, hrest⟩
  rw [List.mem_map]
  rintro ⟨other, hmem, heq⟩
  have hserves : other.serves h.function h.kind = true := Handler.serves_iff.2 (Prod.mk.inj heq)
  simp [hserves] at hmem

theorem register_perm {d d' : Dispatcher ν} (hperm : d.handlers.Perm d'.handlers)
    (h : Handler ν) : (d.register h).handlers.Perm (d'.register h).handlers :=
  (hperm.filter _).cons _

/-- Registrations under different functions or kinds commute, up to the order of the table. -/
theorem register_register_perm (d : Dispatcher ν) {h other : Handler ν}
    (hne : h.serves other.function other.kind = false) :
    ((d.register h).register other).handlers.Perm ((d.register other).register h).handlers := by
  have hne' : other.serves h.function h.kind = false := Handler.serves_comm h other ▸ hne
  simp only [register, List.filter_cons, hne, hne', Bool.not_false, if_true]
  rw [List.filter_filter, List.filter_filter]
  simp only [Bool.and_comm]
  exact List.Perm.swap _ _ _

/-! ## Runs of registrations -/

/-- Register handlers one after the other. -/
def registerAll (d : Dispatcher ν) (handlers : List (TypedHandler ν)) : Dispatcher ν :=
  handlers.foldl (fun d h => d.register h.handler) d

/-- The last handler of a function and kind in a run. -/
def latest? (handlers : List (TypedHandler ν)) (function : FunctionName) (kind : MessageKind) :
    Option (TypedHandler ν) :=
  handlers.reverse.find? fun h => h.route = (function, kind)

theorem latest?_cons (h : TypedHandler ν) (rest : List (TypedHandler ν)) (function : FunctionName)
    (kind : MessageKind) :
    latest? (h :: rest) function kind =
      (latest? rest function kind).or (if h.route = (function, kind) then some h else none) := by
  simp [latest?, List.find?_append, List.find?_singleton]

theorem latest?_eq_none {handlers : List (TypedHandler ν)}
    (hnone : ∀ h ∈ handlers, h.route ≠ (function, kind)) :
    latest? handlers function kind = none := by
  simpa [latest?] using hnone

theorem latest?_append_cons (before after : List (TypedHandler ν)) {h : TypedHandler ν}
    (hroute : h.route = (function, kind))
    (hafter : ∀ later ∈ after, later.route ≠ (function, kind)) :
    latest? (before ++ h :: after) function kind = some h := by
  refine List.find?_eq_some_iff_append.2 ⟨by simpa using hroute, after.reverse, before.reverse, ?_⟩
  refine ⟨by simp, fun later hlater => ?_⟩
  simpa using hafter later (List.mem_reverse.1 hlater)

/-- After a run the latest handler of a function and kind is found, if the run has one. -/
theorem handler?_registerAll (d : Dispatcher ν) (handlers : List (TypedHandler ν))
    (function : FunctionName) (kind : MessageKind) :
    (d.registerAll handlers).handler? function kind =
      ((latest? handlers function kind).map TypedHandler.handler).or
        (d.handler? function kind) := by
  induction handlers generalizing d with
  | nil => rfl
  | cons h rest ih =>
    have hstep := ih (d.register h.handler)
    rw [handler?_register] at hstep
    rw [latest?_cons]
    refine hstep.trans ?_
    by_cases hroute : h.route = (function, kind)
    · rw [if_pos (TypedHandler.serves_handler_iff.2 hroute), if_pos hroute]
      cases latest? rest function kind <;> rfl
    · rw [if_neg (mt TypedHandler.serves_handler_iff.1 hroute), if_neg hroute, Option.or_none]

/-- A function and kind is registered once at most, however often it was registered. -/
theorem nodup_registered_registerAll {d : Dispatcher ν} (hnodup : d.registered.Nodup)
    (handlers : List (TypedHandler ν)) : (d.registerAll handlers).registered.Nodup := by
  induction handlers generalizing d with
  | nil => exact hnodup
  | cons h rest ih => exact ih (nodup_registered_register hnodup h.handler)

theorem registerAll_perm {d d' : Dispatcher ν} (hperm : d.handlers.Perm d'.handlers)
    (handlers : List (TypedHandler ν)) :
    (d.registerAll handlers).handlers.Perm (d'.registerAll handlers).handlers := by
  induction handlers generalizing d d' with
  | nil => exact hperm
  | cons h rest ih => exact ih (register_perm hperm h.handler)

theorem latest?_swap (before after : List (TypedHandler ν)) {h other : TypedHandler ν}
    (hne : h.route ≠ other.route) (function : FunctionName) (kind : MessageKind) :
    latest? (before ++ other :: h :: after) function kind =
      latest? (before ++ h :: other :: after) function kind := by
  induction before with
  | nil =>
    have hor : ∀ x : Option (TypedHandler ν),
        (x.or (if h.route = (function, kind) then some h else none)).or
            (if other.route = (function, kind) then some other else none) =
          (x.or (if other.route = (function, kind) then some other else none)).or
            (if h.route = (function, kind) then some h else none) := by
      grind
    simp only [List.nil_append, latest?_cons, hor]
  | cons first rest ih => simp only [List.cons_append, latest?_cons, ih]

theorem registerAll_swap_perm (d : Dispatcher ν) (before after : List (TypedHandler ν))
    {h other : TypedHandler ν} (hne : h.route ≠ other.route) :
    (d.registerAll (before ++ other :: h :: after)).handlers.Perm
      (d.registerAll (before ++ h :: other :: after)).handlers := by
  have hserves : other.handler.serves h.handler.function h.handler.kind = false := by
    rw [Bool.eq_false_iff, Ne, TypedHandler.serves_handler_iff]
    exact fun heq => hne heq.symm
  induction before generalizing d with
  | nil => exact registerAll_perm (register_register_perm d hserves) after
  | cons first rest ih => exact ih (d.register first.handler)

/-! ## Dispatch after a run -/

/-- The dispatcher's look at name and kind is the check of the handler that it finds. -/
theorem dispatch_registerAll_eq (handlers : List (TypedHandler ν)) (v : Version) (e : Envelope) :
    (empty.registerAll handlers).dispatch v e =
      match FunctionName.ofWireName? v e.name with
      | none => .fail (.badRequest (.unknownFunction e.name))
      | some function =>
        match latest? handlers function e.kind with
        | none => .fail (.badRequest (.noHandler e.kind e.name))
        | some h => h.outcome v e := by
  rw [dispatch]
  cases hname : FunctionName.ofWireName? v e.name with
  | none => rfl
  | some function =>
    simp only
    rw [handler?_registerAll]
    cases hlatest : latest? handlers function e.kind with
    | none => rfl
    | some h =>
      have hroute : h.route = (function, e.kind) := by simpa using List.find?_some hlatest
      exact TypedHandler.handle_handler (TypedHandler.accepts_of_route hname hroute)

/-- Handlers are registered in any number and order, also repeatedly, and then a message comes in.
A name that is no function's is refused, and so is a message whose function and kind no handler
was registered for. Any other message is the message of the last handler that was registered for
its function and kind: the handler reads it, and what its function makes of it is the outcome.
Neighbours in the run with different functions or kinds may change places. -/
theorem dispatch_registerAll (handlers : List (TypedHandler ν)) (v : Version) (e : Envelope) :
    let d := empty.registerAll handlers
    (FunctionName.ofWireName? v e.name = none →
      d.dispatch v e = .fail (.badRequest (.unknownFunction e.name))) ∧
    (∀ function, FunctionName.ofWireName? v e.name = some function →
      (∀ h ∈ handlers, h.route ≠ (function, e.kind)) →
      d.dispatch v e = .fail (.badRequest (.noHandler e.kind e.name))) ∧
    (∀ function before h after, FunctionName.ofWireName? v e.name = some function →
      handlers = before ++ h :: after → h.route = (function, e.kind) →
      (∀ later ∈ after, later.route ≠ (function, e.kind)) →
      h.type.ofEnvelope? v e = some (h.type.ofParams v e.params) ∧
        d.dispatch v e = h.handle ⟨v, e.correlation⟩ (h.type.ofParams v e.params)) ∧
    ∀ before h other after, handlers = before ++ h :: other :: after → h.route ≠ other.route →
      let swapped := empty.registerAll (before ++ other :: h :: after)
      swapped.registered.Perm d.registered ∧ swapped.dispatch v e = d.dispatch v e := by
  intro d
  have hdispatch := dispatch_registerAll_eq handlers v e
  refine ⟨fun hname => ?_, fun function hname hnone => ?_, ?_, ?_⟩
  · rw [hdispatch, hname]
  · rw [hdispatch, hname]
    simp only [latest?_eq_none hnone]
  · intro function before h after hname hsplit hroute hafter
    have haccepts := TypedHandler.accepts_of_route hname hroute
    refine ⟨TypedHandler.ofEnvelope?_of_accepts haccepts, ?_⟩
    rw [hdispatch, hname, hsplit]
    simp only [latest?_append_cons before after hroute hafter]
    rfl
  · intro before h other after hsplit hne
    refine ⟨?_, ?_⟩
    · have hperm := registerAll_swap_perm empty before after hne
      rw [← hsplit] at hperm
      exact hperm.map _
    · rw [dispatch_registerAll_eq, hdispatch, hsplit]
      simp only [latest?_swap before after hne]

/-- The second of two handlers for the removal of menu commands gets the removal, whatever else is
registered after it. -/
theorem dispatch_registerAll_deleteCommand :
    let tell (note : String) : Context → Catalog.deleteCommand.Message → Outcome String :=
      fun context message => ⟨[note], .ok (some (Catalog.deleteCommandResponse.toEnvelope
        context.version context.correlation
        (Catalog.DeleteCommandResponse.of message.1.isSome none none)))⟩
    let first : TypedHandler String := ⟨Catalog.deleteCommand, tell "first"⟩
    let second : TypedHandler String := ⟨Catalog.deleteCommand, tell "second"⟩
    let answers : TypedHandler String :=
      ⟨Catalog.deleteCommandResponse, fun _ _ => .fail (.internal "")⟩
    let e := Catalog.deleteCommand.toEnvelope .v3 (some 7) (some 42, ())
    (empty.registerAll [first, second, answers]).dispatch .v3 e =
      ⟨["second"], .ok (some (Catalog.deleteCommandResponse.toEnvelope .v3 (some 7)
        (some true, none, none, ())))⟩ := by
  intro tell first second answers e
  obtain ⟨-, -, hlast, -⟩ := dispatch_registerAll [first, second, answers] .v3 e
  have hname : FunctionName.ofWireName? .v3 e.name = some .deleteCommand :=
    FunctionName.ofWireName?_wireName .deleteCommand .v3
  have hafter : ∀ later ∈ [answers], later.route ≠ (FunctionName.deleteCommand, e.kind) := by
    simp only [List.forall_mem_singleton]
    decide
  exact (hlast .deleteCommand [first] second [answers] hname rfl rfl hafter).2

end Dispatcher

end HeadUnit
