import HeadUnit.Proofs.Catalog.Messages
import HeadUnit.Proofs.Config.Valid
import HeadUnit.Proofs.Envelope.Acceptance
import HeadUnit.Proofs.Inspector.Deletion

/-!
# Replies of the inspector

A frame is answered if it is short enough, reads as a request to delete a command, and is covered
by a rule. Every answer is shorter than the least frame limit, so nothing is ever too large behind
the check of a frame's length.

## Main definitions

* `Inspector.Session.Admits` — a frame and the message that a session hands to its handlers.
* `Inspector.Answered` — a frame and the message in it that is answered.
* `Inspector.deletionRequest` — a request that is answered wherever a rule covers it.

## Main statements

* `Inspector.Session.process_cases` — a frame is dispatched or told of in one event.
* `Inspector.Session.replies_dispatch` — what is sent for a message.
* `Inspector.replies_process_of_ofText` — which frames are answered under a configuration, and how.
-/

namespace HeadUnit

namespace Inspector

open Catalog

variable {s : Session} {line : Nat} {frame : ByteArray} {e : Envelope}

namespace Session

/-! ## One frame -/

/-- The frame is short enough and holds the message, which the policy lets in. -/
structure Admits (s : Session) (frame : ByteArray) (e : Envelope) : Prop where
  size_le : frame.size ≤ s.policy.frameLimit
  decodeBytes_eq : Envelope.decodeBytes frame = .ok e
  checkMessage_eq : s.policy.checkMessage e.kind e.name = none

theorem Admits.unique {other : Envelope} (h : s.Admits frame e) (hother : s.Admits frame other) :
    e = other :=
  Except.ok.inj (h.decodeBytes_eq.symm.trans hother.decodeBytes_eq)

theorem decode_eq_map (h : frame.size ≤ s.policy.frameLimit) :
    Frame.decode frame s.policy.frameLimit =
      (Envelope.decodeBytes frame).map (⟨·, frame.size⟩) :=
  if_neg (Nat.not_lt.2 h)

/-- A frame's message is dispatched, or one event tells why it is not. -/
theorem process_cases (s : Session) (line : Nat) (frame : ByteArray) :
    (∃ e, s.Admits frame e ∧ s.process line frame = s.dispatch line ⟨e, frame.size⟩) ∨
      (∀ e, ¬ s.Admits frame e) ∧
        ∃ event, s.process line frame = .silent [event] ∧ event.blamesSize = false := by
  rw [process]
  cases hlength : s.policy.checkLength frame.size with
  | some why =>
    refine .inr ⟨fun e h => ?_, .frameRejected line why, rfl, rfl⟩
    simp [Policy.checkLength_eq_none_iff.2 h.size_le] at hlength
  | none =>
    have hsize := Policy.checkLength_eq_none_iff.1 hlength
    rw [decode_eq_map hsize]
    cases hdecode : Envelope.decodeBytes frame with
    | error error =>
      obtain ⟨fault, rfl⟩ := Envelope.exists_of_decodeBytes_eq_error hdecode
      refine .inr ⟨fun e h => ?_, .decodeFailed line _, rfl, rfl⟩
      exact absurd (hdecode.symm.trans h.decodeBytes_eq) (by simp)
    | ok e =>
      cases hmessage : s.policy.checkMessage e.kind e.name with
      | some why =>
        refine .inr ⟨fun other h => ?_, .messageRejected line e.kind e.name why, ?_, rfl⟩
        · obtain rfl : e = other := Except.ok.inj (hdecode.symm.trans h.decodeBytes_eq)
          exact absurd (hmessage.symm.trans h.checkMessage_eq) (by simp)
        · simp only [Except.map, hmessage]
      | none =>
        refine .inl ⟨e, ⟨hsize, hdecode, hmessage⟩, ?_⟩
        simp only [Except.map, hmessage]

/-! ## One message -/

/-- An answer is sent: it is shorter than the least frame limit. -/
theorem encode_deletionReply (hlimit : Config.leastFrameLimit ≤ s.policy.frameLimit)
    (correlation : Option UInt32) (deleted : Bool) :
    Frame.encode (deletionReply correlation deleted) s.policy.frameLimit =
      .ok (deletionReply correlation deleted).encodeBytes := by
  have hsize := (size_encodeBytes_deletionReply_le correlation deleted).trans hlimit
  rw [Frame.encode, if_neg (Nat.not_lt.2 hsize)]

/-- Requests to delete a command are answered, and nothing else is. -/
theorem replies_dispatch (hlimit : Config.leastFrameLimit ≤ s.policy.frameLimit) (line : Nat)
    (received : Frame.Received) :
    (s.dispatch line received).replies =
      if received.envelope.kind = .request ∧ received.envelope.name = "DeleteCommand" then
        [(deletionReply received.envelope.correlation
          (decide (NamesCommand received.envelope.params))).encodeBytes]
      else [] := by
  have hanswer (reply : Envelope) :
      (dispatcher.dispatch s.version received.envelope).answer = .ok (some reply) ↔ _ :=
    answer_dispatch_eq_ok_some_iff
  rw [dispatch, Transcript.replies_append, Transcript.replies_silent, List.nil_append]
  split_ifs with hrequest
  · rw [(hanswer _).2 ⟨hrequest, rfl⟩, reply, encode_deletionReply hlimit]
  · cases houtcome : (dispatcher.dispatch s.version received.envelope).answer with
    | error error => rfl
    | ok answer =>
      cases answer with
      | none => rfl
      | some reply => exact absurd ((hanswer reply).1 houtcome).1 hrequest

/-- Nothing about a message is too large. -/
theorem blamesSize_of_mem_dispatch (hlimit : Config.leastFrameLimit ≤ s.policy.frameLimit)
    (line : Nat) (received : Frame.Received) :
    ∀ event ∈ (s.dispatch line received).events, event.blamesSize = false := by
  intro event hevent
  rw [dispatch, Transcript.events_append, List.mem_append] at hevent
  obtain hnote | hreply := hevent
  · obtain rfl | hnote := List.mem_cons.1 hnote
    · rfl
    · exact blamesSize_of_mem_notes event hnote
  · cases houtcome : (dispatcher.dispatch s.version received.envelope).answer with
    | error error =>
      rw [houtcome] at hreply
      obtain rfl := List.mem_singleton.1 hreply
      rfl
    | ok answer =>
      cases answer with
      | none => simp [houtcome, reply, Transcript.empty] at hreply
      | some reply =>
        obtain ⟨-, rfl⟩ := answer_dispatch_eq_ok_some_iff.1 houtcome
        simp [houtcome, Session.reply, encode_deletionReply hlimit] at hreply

/-- Nothing is too large behind the check of a frame's length. -/
theorem blamesSize_of_mem_process (hlimit : Config.leastFrameLimit ≤ s.policy.frameLimit)
    (line : Nat) (frame : ByteArray) :
    ∀ event ∈ (s.process line frame).events, event.blamesSize = false := by
  obtain ⟨e, -, hprocess⟩ | ⟨-, event, hprocess, hevent⟩ := s.process_cases line frame
  · rw [hprocess]
    exact blamesSize_of_mem_dispatch hlimit line _
  · rw [hprocess]
    exact List.forall_mem_singleton.2 hevent

end Session

/-! ## Under a configuration -/

/-- The frame is short enough and holds the message, a request to delete a command, and the text of
a rule covers such requests. -/
structure Answered (c : Config) (frame : ByteArray) (e : Envelope) : Prop where
  size_le : frame.size ≤ c.frameLimit
  decodeBytes_eq : Envelope.decodeBytes frame = .ok e
  kind_eq : e.kind = .request
  name_eq : e.name = "DeleteCommand"
  covers : ∃ text ∈ c.allow, Rule.Covers text .request "DeleteCommand"

theorem answered_iff {c : Config} (hpolicy : Policy.ofConfig c = .ok s.policy) :
    Answered c frame e ↔ s.Admits frame e ∧ e.kind = .request ∧ e.name = "DeleteCommand" := by
  have hlimit := Policy.frameLimit_of_ofConfig hpolicy
  have hcovers (kind : MessageKind) (function : String) :
      s.policy.checkMessage kind function = none ↔ _ :=
    Policy.checkMessage_ofConfig hpolicy
  constructor
  · rintro ⟨hsize, hdecode, hkind, hname, hallow⟩
    refine ⟨⟨hlimit ▸ hsize, hdecode, ?_⟩, hkind, hname⟩
    rw [hkind, hname]
    exact (hcovers _ _).2 hallow
  · rintro ⟨⟨hsize, hdecode, hmessage⟩, hkind, hname⟩
    rw [hkind, hname] at hmessage
    exact ⟨hlimit ▸ hsize, hdecode, hkind, hname, (hcovers _ _).1 hmessage⟩

/-- The reply to a frame that is answered. -/
theorem replies_process_of_answered {c : Config} (hvalid : c.Valid)
    (hpolicy : Policy.ofConfig c = .ok s.policy) (line : Nat) (hanswered : Answered c frame e) :
    (s.process line frame).replies =
      [(deletionReply e.correlation (decide (NamesCommand e.params))).encodeBytes] := by
  obtain ⟨hadmits, hrequest⟩ := (answered_iff hpolicy).1 hanswered
  obtain ⟨other, hother, hprocess⟩ | ⟨hnone, -⟩ := s.process_cases line frame
  · obtain rfl := hadmits.unique hother
    rw [hprocess, Session.replies_dispatch (hvalid.leastFrameLimit_le_policy hpolicy),
      if_pos hrequest]
  · exact absurd hadmits (hnone e)

/-! ### A request to delete a command -/

/-- A request to delete this command. -/
def deletionRequest (correlation command : UInt32) : Envelope :=
  deleteCommand.toEnvelope .latest (some correlation) (some command, ())

theorem portable_deleteCommand : deleteCommand.body.Portable :=
  portable_fixedMessages deleteCommand (by simp [fixedMessages])

theorem namesCommand_deletionRequest (correlation command : UInt32) :
    NamesCommand (deletionRequest correlation command).params := by
  have hmessage := MessageType.ofParams_toParams (m := deleteCommand) .latest (some command, ())
    portable_deleteCommand
  refine (isSome_commandId .latest _).1 ?_
  change (DeleteCommand.commandId (deleteCommand.ofParams .latest
    (deleteCommand.toParams .latest (some command, ())))).isSome = true
  rw [hmessage]
  rfl

theorem answered_deletionRequest {c : Config} {correlation command : UInt32}
    (hsize : (deletionRequest correlation command).encodeBytes.size ≤ c.frameLimit)
    (hcovers : ∃ text ∈ c.allow, Rule.Covers text .request "DeleteCommand") :
    Answered c (deletionRequest correlation command).encodeBytes
      (deletionRequest correlation command) :=
  ⟨hsize, MessageType.decodeBytes_encodeBytes_toEnvelope (m := deleteCommand) .latest
    (some correlation) (some command, ()) portable_deleteCommand, rfl, rfl, hcovers⟩

/-! ### Every frame -/

/-- A session starts with every configuration that reads. It answers a frame exactly if the frame
is short enough and reads as a request to delete a command that the text of a rule covers. The
answer is one frame within the limit, a response with the request's correlation identifier, which
tells whether the request names a command. No answer is too large to be sent, and no frame is found
too large once its length was checked. -/
theorem replies_process_of_ofText {text : String} {c : Config} (h : Config.ofText text = .ok c) :
    ∃ s : Session, Session.ofConfig c = .ok s ∧ Policy.ofConfig c = .ok s.policy ∧
      c.protocolVersion = .ok s.version ∧
      ∀ line frame,
        ((s.process line frame).replies ≠ [] ↔ ∃ e, Answered c frame e) ∧
        (∀ e, Answered c frame e → ∃ deleted reply,
          (s.process line frame).replies = [reply] ∧
          reply = (deletionReply e.correlation deleted).encodeBytes ∧
          (deleted = true ↔ NamesCommand e.params) ∧ reply.size ≤ c.frameLimit) ∧
        (∀ n error, .replyFailed n error ∉ (s.process line frame).events) ∧
        ∀ n length limit,
          .decodeFailed n (.payloadTooLarge length limit) ∉ (s.process line frame).events := by
  have hvalid := Config.Valid.of_ofText h
  obtain ⟨s, hsession, hpolicy, hversion⟩ := hvalid.exists_ofConfig
  have hlimit := hvalid.leastFrameLimit_le_policy hpolicy
  refine ⟨s, hsession, hpolicy, hversion, fun line frame => ?_⟩
  have hreplies (e : Envelope) : Answered c frame e → (s.process line frame).replies = _ :=
    replies_process_of_answered hvalid hpolicy line
  refine ⟨⟨fun hne => ?_, ?_⟩, fun e hanswered => ?_, fun n error hmem => ?_,
    fun n length limit hmem => ?_⟩
  · obtain ⟨e, hadmits, hprocess⟩ | ⟨-, event, hprocess, -⟩ := s.process_cases line frame
    · rw [hprocess, Session.replies_dispatch hlimit] at hne
      exact ⟨e, (answered_iff hpolicy).2 ⟨hadmits, by_contra fun hno => hne (if_neg hno)⟩⟩
    · exact absurd (by rw [hprocess, Transcript.replies_silent]) hne
  · rintro ⟨e, hanswered⟩
    simp [hreplies e hanswered]
  · refine ⟨_, _, hreplies e hanswered, rfl, decide_eq_true_iff, ?_⟩
    exact (size_encodeBytes_deletionReply_le _ _).trans hvalid.leastFrameLimit_le
  · exact absurd (Session.blamesSize_of_mem_process hlimit line frame _ hmem) (by
      simp [Event.blamesSize])
  · exact absurd (Session.blamesSize_of_mem_process hlimit line frame _ hmem) (by
      simp [Event.blamesSize])

/-- Under a configuration with two rules a request for command 42 is answered with success. -/
theorem replies_process_of_ofText_deleteCommand :
    let text := "version: 1\nlimits:\n  max_frame_bytes: 256\npolicy:\n  " ++
      "allow: ['notification:*', 'request:DeleteCommand']\n"
    let c : Config := ⟨1, 5, 1, 256, ["notification:*", "request:DeleteCommand"]⟩
    let frame := (deletionRequest 7 42).encodeBytes
    Config.ofText text = .ok c ∧ ∃ s : Session, Session.ofConfig c = .ok s ∧
      (s.process 1 frame).replies = [(deletionReply (some 7) true).encodeBytes] := by
  intro text c frame
  have htext : Config.ofText text = .ok c := by decide +kernel
  have hsize : frame.size ≤ 256 := by decide +kernel
  have hcovers : ∃ text ∈ c.allow, Rule.Covers text .request "DeleteCommand" :=
    ⟨"request:DeleteCommand", by simp [c], "request", "DeleteCommand", rfl, .inr rfl, .inr rfl⟩
  obtain ⟨s, hsession, -, -, hprocess⟩ := replies_process_of_ofText htext
  obtain ⟨deleted, reply, hreplies, hreply, hdeleted, -⟩ :=
    (hprocess 1 frame).2.1 _ (answered_deletionRequest hsize hcovers)
  have hcorrelation : (deletionRequest 7 42).correlation = some 7 := rfl
  rw [hreply, hdeleted.2 (namesCommand_deletionRequest 7 42), hcorrelation] at hreplies
  exact ⟨htext, s, hsession, hreplies⟩

end Inspector

end HeadUnit
