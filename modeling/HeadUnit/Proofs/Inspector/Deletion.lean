import HeadUnit.Inspector.Handlers
import HeadUnit.Proofs.Dispatcher.Routing
import HeadUnit.Proofs.Envelope.Text

/-!
# Requests to delete a command

The inspector answers requests to delete a command and nothing else. The answer says whether the
request names a command, and it is short whatever the request holds.

## Main definitions

* `Inspector.NamesCommand` — a request's parameters name a command.
* `Inspector.deletionReply` — the answer to a request.
* `Inspector.Event.blamesSize` — events about frames that are too large.

## Main statements

* `Inspector.answer_dispatch_eq_ok_some_iff` — which messages are answered, and how.
* `Inspector.size_encodeBytes_deletionReply_le` — how long an answer is.
* `Inspector.blamesSize_of_mem_notes` — handlers note nothing about the size of frames.
-/

namespace HeadUnit

namespace FunctionName

theorem wireName_deleteCommand (v : Version) : wireName .deleteCommand v = "DeleteCommand" :=
  rfl

theorem ofWireName?_eq_deleteCommand_iff {v : Version} {name : String} :
    ofWireName? v name = some .deleteCommand ↔ name = "DeleteCommand" := by
  refine ⟨fun h => (Vocabulary.wireName_of_ofWireName? h).symm, fun h => ?_⟩
  rw [h, ← wireName_deleteCommand v]
  exact ofWireName?_wireName .deleteCommand v

end FunctionName

namespace Inspector

open Catalog

variable {v : Version} {e reply : Envelope} {correlation : Option UInt32}

/-! ## The answer -/

/-- Under the command's key is an integer of thirty-two unsigned bits. -/
def NamesCommand (p : Params) : Prop :=
  ∃ n : Int64, p.get? "cmdID" = some (.integer n) ∧ 0 ≤ n.toInt ∧ n.toInt ≤ 0xffffffff

/-- The answer to a request with this correlation identifier. -/
def deletionReply (correlation : Option UInt32) (deleted : Bool) : Envelope where
  kind := .response
  name := "DeleteCommand"
  correlation := correlation
  params := ⟨[("resultCode", .text (if deleted then "SUCCESS" else "INVALID_DATA")),
    ("success", .bool deleted)]⟩

theorem isSome_commandId (v : Version) (p : Params) :
    (DeleteCommand.commandId (deleteCommand.ofParams v p)).isSome = true ↔ NamesCommand p := by
  change ((p.get? "cmdID").bind fun value => value.asInt?.bind uint32Of?).isSome = true ↔ _
  rw [NamesCommand]
  cases p.get? "cmdID" with
  | none => simp
  | some value =>
    cases value with
    | integer n =>
      have hbound : n.toInt < 0x100000000 ↔ n.toInt ≤ 0xffffffff := by omega
      simp [Value.asInt?, uint32Of?, hbound]
    | _ => simp [Value.asInt?]

instance : DecidablePred NamesCommand := fun p => decidable_of_iff _ (isSome_commandId .latest p)

theorem toEnvelope_deletion (v : Version) (correlation command : Option UInt32) :
    deleteCommandResponse.toEnvelope v correlation (deletion command) =
      deletionReply correlation command.isSome := by
  have hparams : deleteCommandResponse.toParams v (deletion command) =
      (deletionReply correlation command.isSome).params := by
    cases v <;> cases command <;> rfl
  rw [MessageType.toEnvelope, hparams, FunctionName.wireName_deleteCommand]
  rfl

/-- The text of an answer in front of its correlation identifier. -/
def deletionReplyStart : List Char :=
  '\x7b' :: Json.quote "response" ++ [':', '\x7b']

/-- The text of an answer behind its correlation identifier. -/
def deletionReplyRest (deleted : Bool) : List Char :=
  Json.quote "name" ++ ':' :: Json.quote "DeleteCommand" ++ ',' :: Json.quote "parameters" ++
    ':' :: (deletionReply none deleted).params.toJson.chars ++ ['\x7d', '\x7d']

theorem chars_encode_deletionReply (correlation : Option UInt32) (deleted : Bool) :
    (deletionReply correlation deleted).encode.chars =
      deletionReplyStart ++
        (Envelope.identifierChars correlation ++ deletionReplyRest deleted) := by
  refine (Envelope.chars_encode _).trans ?_
  simp [deletionReplyStart, deletionReplyRest, deletionReply, Envelope.sentCorrelation,
    MessageKind.isCorrelated, MessageKind.tag]

/-- An answer is short: only its correlation identifier and its result vary. -/
theorem size_encodeBytes_deletionReply_le (correlation : Option UInt32) (deleted : Bool) :
    (deletionReply correlation deleted).encodeBytes.size ≤ 256 := by
  have hrest : (deletionReplyRest deleted).length ≤ 90 ∧
      (deletionReplyRest deleted).all Text.isNarrow = true := by
    cases deleted <;> decide
  have hstart : deletionReplyStart.length = 13 ∧ deletionReplyStart.all Text.isNarrow = true := by
    decide
  have hchars := chars_encode_deletionReply correlation deleted
  have hidentifier := Envelope.length_identifierChars_le correlation
  have hnarrow : (deletionReply correlation deleted).encode.chars.all Text.isNarrow = true := by
    rw [hchars, List.all_append, List.all_append, hstart.2, hrest.2,
      Envelope.all_isNarrow_identifierChars]
    rfl
  rw [Envelope.size_encodeBytes _ hnarrow, hchars, List.length_append, List.length_append, hstart.1]
  omega

/-! ## The handlers -/

/-- Whether an event tells of a frame that is too large behind the check of its length. -/
def Event.blamesSize : Event → Bool
  | .decodeFailed _ (.payloadTooLarge ..) => true
  | .replyFailed .. => true
  | _ => false

theorem handlers_dispatcher : dispatcher.handlers = handlers.reverse :=
  rfl

/-- The handlers that a message can go to. -/
theorem handler?_dispatcher_cases {function : FunctionName} {kind : MessageKind} {h : Handler Event}
    (hfound : dispatcher.handler? function kind = some h) :
    h = onDeleteCommand ∨ h = onDeleteCommandResponse ∨ h = onSystemRequest ∨
      h = onButtonPressed ∨ h = onTelemetry := by
  have hmem := List.mem_of_find?_eq_some hfound
  rw [handlers_dispatcher, List.mem_reverse] at hmem
  simpa [handlers] using hmem

theorem accepts_deleteCommand_iff :
    deleteCommand.accepts v e = true ↔ e.kind = .request ∧ e.name = "DeleteCommand" := by
  rw [MessageType.accepts, Bool.and_eq_true, beq_iff_eq, beq_iff_eq,
    FunctionName.ofWireName?_eq_deleteCommand_iff]

theorem answer_onDeleteCommand (haccepts : deleteCommand.accepts v e = true) :
    (onDeleteCommand.handle ⟨v, correlation⟩ e).answer =
      .ok (some (deletionReply correlation (decide (NamesCommand e.params)))) := by
  have hmessage : deleteCommand.ofEnvelope? v e = some (deleteCommand.ofParams v e.params) :=
    if_pos haccepts
  have hnames : (DeleteCommand.commandId (deleteCommand.ofParams v e.params)).isSome =
      decide (NamesCommand e.params) := by
    rw [Bool.eq_iff_iff, decide_eq_true_iff, isSome_commandId]
  simp only [onDeleteCommand, Handler.typed, hmessage, toEnvelope_deletion, hnames]

/-- Requests to delete a command are answered, and no other message is. -/
theorem answer_dispatch_eq_ok_some_iff :
    (dispatcher.dispatch v e).answer = .ok (some reply) ↔
      (e.kind = .request ∧ e.name = "DeleteCommand") ∧
        reply = deletionReply e.correlation (decide (NamesCommand e.params)) := by
  constructor
  · intro hanswer
    obtain ⟨function, h, hname, hfound, hdispatch⟩ | ⟨error, hdispatch⟩ :=
      dispatcher.dispatch_cases v e
    · rw [hdispatch] at hanswer
      obtain rfl | rfl | rfl | rfl | rfl := handler?_dispatcher_cases hfound
      · have hserves := Dispatcher.serves_of_handler? hfound
        obtain ⟨hfunction, hkind⟩ := Handler.serves_iff.1 hserves
        have haccepts : deleteCommand.accepts v e = true := by
          simp only [MessageType.accepts, hname, ← hfunction, ← hkind]
          decide
        have hreply := (answer_onDeleteCommand haccepts).symm.trans hanswer
        exact ⟨accepts_deleteCommand_iff.1 haccepts, (Option.some.inj (Except.ok.inj hreply)).symm⟩
      · exact absurd hanswer (Handler.answer_typed_ne fun _ _ => rfl)
      · exact absurd hanswer (Handler.answer_typed_ne fun _ _ => rfl)
      · exact absurd hanswer (Handler.answer_typed_ne fun _ _ => rfl)
      · exact absurd hanswer (Handler.answer_typed_ne fun _ _ => rfl)
    · simp [hdispatch, Outcome.fail] at hanswer
  · rintro ⟨hrequest, rfl⟩
    have hfound : dispatcher.handler? .deleteCommand .request = some onDeleteCommand := rfl
    have hname := (FunctionName.ofWireName?_eq_deleteCommand_iff (v := v)).2 hrequest.2
    have hdispatch : dispatcher.dispatch v e = onDeleteCommand.handle ⟨v, e.correlation⟩ e := by
      simp only [Dispatcher.dispatch, hname, hrequest.1, hfound]
    rw [hdispatch]
    exact answer_onDeleteCommand (accepts_deleteCommand_iff.2 hrequest)

theorem blamesSize_of_mem_telemetryEvents (message : onVehicleData.Message) :
    ∀ note ∈ telemetryEvents message, note.blamesSize = false := by
  intro note hnote
  simp only [telemetryEvents, List.mem_append, List.mem_map] at hnote
  obtain ⟨datum, -, rfl⟩ | hkeys := hnote
  · rfl
  · split at hkeys
    · simp at hkeys
    · rw [List.mem_singleton.1 hkeys]
      rfl

/-- Handlers note nothing about the size of frames. -/
theorem blamesSize_of_mem_notes :
    ∀ note ∈ (dispatcher.dispatch v e).notes, note.blamesSize = false := by
  obtain ⟨function, h, -, hfound, hdispatch⟩ | ⟨error, hdispatch⟩ := dispatcher.dispatch_cases v e
  · rw [hdispatch]
    obtain rfl | rfl | rfl | rfl | rfl := handler?_dispatcher_cases hfound
    · exact Handler.forall_mem_notes_typed fun _ _ => by simp [Event.blamesSize]
    · exact Handler.forall_mem_notes_typed fun _ _ => by simp [Event.blamesSize]
    · exact Handler.forall_mem_notes_typed fun _ _ => by simp [Event.blamesSize]
    · exact Handler.forall_mem_notes_typed fun _ _ => by simp [Event.blamesSize]
    · exact Handler.forall_mem_notes_typed fun _ => blamesSize_of_mem_telemetryEvents
  · simp [hdispatch, Outcome.fail]

end Inspector

end HeadUnit
