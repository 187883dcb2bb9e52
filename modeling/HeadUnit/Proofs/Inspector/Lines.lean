import HeadUnit.Proofs.Inspector.Replies
import HeadUnit.Proofs.Text.Lines

/-!
# Lines of the input

What the inspector writes is put together from what it writes for each line, whatever stands in
the other lines, up to the first line that is no text. That line ends the input, though it could be
read: the lines behind it get no answer.

## Main definitions

* `Inspector.Transcript.output` — the bytes that are written.
* `Inspector.Session.answer` — what is written for one line.

## Main statements

* `Inspector.Session.output_run` — the output for the lines of an input.
* `Inspector.output_run_of_ofText` — the output of a whole session, and of one input behind another.
* `Inspector.not_forall_output_run_eq_flatMap` — a line that is no text suppresses an answer.
-/

namespace HeadUnit

namespace Inspector

variable {s : Session}

/-! ## Output -/

namespace Transcript

/-- The bytes that are written: each frame that is sent with a line end. -/
def output (t : Transcript) : List UInt8 :=
  t.replies.flatMap fun frame => (frame.push 10).data.toList

@[simp] theorem output_empty : empty.output = [] := rfl

@[simp] theorem output_silent (events : List Event) : (silent events).output = [] := rfl

@[simp] theorem output_append (t u : Transcript) : (t.append u).output = t.output ++ u.output :=
  List.flatMap_append

end Transcript

namespace Session

/-- What is written for a line on its own. -/
def answer (s : Session) (line : List UInt8) : List UInt8 :=
  (s.process 1 ⟨line.toArray⟩).output

theorem replies_reply (s : Session) (m n : Nat) (answer : Except Error (Option Envelope)) :
    (s.reply m answer).replies = (s.reply n answer).replies := by
  rcases answer with error | _ | envelope
  · rfl
  · rfl
  · simp only [reply]
    cases Frame.encode envelope s.policy.frameLimit <;> rfl

/-- The number of a line is told of in events alone. -/
theorem replies_process (s : Session) (m n : Nat) (frame : ByteArray) :
    (s.process m frame).replies = (s.process n frame).replies := by
  obtain ⟨e, hadmits, hm⟩ | ⟨hnone, event, hm, -⟩ := s.process_cases m frame
  · obtain ⟨other, hother, hn⟩ | ⟨hnone, -⟩ := s.process_cases n frame
    · obtain rfl := hadmits.unique hother
      rw [hm, hn]
      exact s.replies_reply m n _
    · exact absurd hadmits (hnone e)
  · obtain ⟨e, hadmits, -⟩ | ⟨-, other, hn, -⟩ := s.process_cases n frame
    · exact absurd hadmits (hnone e)
    · rw [hm, hn, Transcript.replies_silent, Transcript.replies_silent]

theorem answer_toList (s : Session) (frame : ByteArray) :
    s.answer frame.data.toList = (s.process 1 frame).output := by
  rw [answer, Array.toArray_toList]

theorem output_process (s : Session) (number : Nat) (line : List UInt8) :
    (s.process number ⟨line.toArray⟩).output = s.answer line := by
  rw [answer, Transcript.output, Transcript.output, s.replies_process number 1]

/-- A blank line is no frame, and as a frame it would get no answer. -/
theorem answer_of_isBlankLine {line : List UInt8} {text : String}
    (htext : String.fromUTF8? ⟨line.toArray⟩ = some text) (hblank : Text.isBlankLine text = true) :
    s.answer line = [] := by
  obtain ⟨e, hadmits, -⟩ | ⟨-, event, hprocess, -⟩ := s.process_cases 1 ⟨line.toArray⟩
  · have hjson : Json.ofUtf8? ⟨line.toArray⟩ = none := by
      rw [Json.ofUtf8?, htext]
      exact Text.parse?_of_isBlankLine hblank
    have hdecode := hadmits.decodeBytes_eq
    simp [Envelope.decodeBytes, hjson] at hdecode
  · rw [answer, hprocess, Transcript.output_silent]

/-- A line that is a text is answered; any other line ends the input. -/
theorem line?_cases (s : Session) (number : Nat) (line : List UInt8) :
    (Text.isText line = true ∧ ∃ t, s.line? number line = some t ∧ t.output = s.answer line) ∨
      Text.isText line = false ∧ s.line? number line = none := by
  rw [line?, Text.isText]
  cases htext : String.fromUTF8? ⟨line.toArray⟩ with
  | none => exact .inr ⟨rfl, rfl⟩
  | some text =>
    refine .inl ⟨rfl, _, rfl, ?_⟩
    split_ifs with hblank
    · rw [Transcript.output_empty, answer_of_isBlankLine htext hblank]
    · exact s.output_process number line

/-- The output for some lines is put together from what is written for each of them, up to the
first line that is no text. -/
theorem output_run (s : Session) (number : Nat) (lines : List (List UInt8)) :
    (s.run number lines).output = (lines.takeWhile Text.isText).flatMap s.answer := by
  induction lines generalizing number with
  | nil => rfl
  | cons line rest ih =>
    obtain ⟨htext, t, hline, ht⟩ | ⟨htext, hline⟩ := s.line?_cases number line
    · rw [List.takeWhile_cons_of_pos htext, List.flatMap_cons, ← ht, ← ih (number + 1)]
      simp only [run, hline, Transcript.output_append]
    · rw [List.takeWhile_cons_of_neg (by simp [htext])]
      simp only [run, hline, Transcript.output_silent, List.flatMap_nil]

/-- What is written for a whole input. -/
def output (s : Session) (input : List UInt8) : List UInt8 :=
  (s.run 1 (Text.lines input)).output

theorem output_eq (s : Session) (input : List UInt8) :
    s.output input = ((Text.lines input).takeWhile Text.isText).flatMap s.answer :=
  s.output_run 1 _

/-- One input behind another is answered on its own, unless a line of the first is no text. -/
theorem output_append (s : Session) (first rest : List UInt8) :
    s.output (first ++ 10 :: rest) =
      if (Text.lines (first ++ [10])).all Text.isText then
        s.output (first ++ [10]) ++ s.output rest
      else s.output (first ++ [10]) := by
  rw [output_eq, Text.takeWhile_isText_lines_append, output_eq, output_eq]
  split_ifs with hall
  · have hself := List.takeWhile_eq_self_iff.2 (List.all_eq_true.1 hall)
    rw [List.flatMap_append, hself]
  · rfl

end Session

/-! ## Whole sessions -/

section

variable {text : String} {c : Config}

/-- A session with a configuration that reads runs to the end, and writes what it writes for the
input. -/
theorem exists_run (htext : Config.ofText text = .ok c) (hs : Session.ofConfig c = .ok s)
    (path : String) (input : List UInt8) :
    ∃ t, run path (.ok text) input = .ok t ∧ t.output = s.output input := by
  have hsource : Session.ofSource (.ok text) = .ok s := by
    simp [Session.ofSource, Config.ofSource, htext, hs, Except.mapError, bind, Except.bind]
  refine ⟨(Transcript.silent [s.started path]).append (s.run 1 (Text.lines input)), ?_, ?_⟩
  · simp [run, hsource, bind, Except.bind]
  · rw [Transcript.output_append, Transcript.output_silent, List.nil_append, Session.output]

/-- A session that starts from a configuration that reads writes for its input what it writes for
each line on its own, whatever number the line has and whatever is refused or blank before it, up
to the first line that is no text: there the output ends. So the output for one input behind
another, the first one ended, is the one output behind the other, unless a line of the first input
is no text; then it is the output for the first input alone. -/
theorem output_run_of_ofText (htext : Config.ofText text = .ok c) :
    ∃ s : Session, Session.ofConfig c = .ok s ∧
      (∀ path input, ∃ t, run path (.ok text) input = .ok t ∧ t.output = s.output input) ∧
      (∀ input, s.output input = ((Text.lines input).takeWhile Text.isText).flatMap s.answer) ∧
      (∀ number line, (s.process number ⟨line.toArray⟩).output = s.answer line) ∧
      ∀ first rest, s.output (first ++ 10 :: rest) =
        if (Text.lines (first ++ [10])).all Text.isText then
          s.output (first ++ [10]) ++ s.output rest
        else s.output (first ++ [10]) := by
  obtain ⟨s, hs, -, -⟩ := (Config.Valid.of_ofText htext).exists_ofConfig
  exact ⟨s, hs, exists_run htext hs, s.output_eq, s.output_process, s.output_append⟩

end

/-! ### A line that is no text -/

/-- What is written for a request to delete a command. -/
theorem answer_deletionRequest {c : Config} (hvalid : c.Valid)
    (hpolicy : Policy.ofConfig c = .ok s.policy) {correlation command : UInt32}
    (hsize : (deletionRequest correlation command).encodeBytes.size ≤ c.frameLimit)
    (hcovers : ∃ text ∈ c.allow, Rule.Covers text .request "DeleteCommand") :
    s.answer (deletionRequest correlation command).encodeBytes.data.toList =
      ((deletionReply (some correlation) true).encodeBytes.push 10).data.toList := by
  have hreplies := replies_process_of_answered hvalid hpolicy 1
    (answered_deletionRequest hsize hcovers)
  have hcorrelation : (deletionRequest correlation command).correlation = some correlation := rfl
  rw [hcorrelation, decide_eq_true (namesCommand_deletionRequest correlation command)] at hreplies
  rw [s.answer_toList, Transcript.output, hreplies, List.flatMap_singleton]

/-- A configuration that lets everything in. -/
def openConfig : Config := ⟨1, 5, 1, 131072, ["*:*"]⟩

/-- The text of a configuration that lets everything in. -/
def openConfigText : String := "version: 1\npolicy:\n  allow: ['*:*']\n"

theorem ofText_openConfigText : Config.ofText openConfigText = .ok openConfig := by
  decide +kernel

/-- A line that asks for the removal of a command. -/
def requestLine : List UInt8 := (deletionRequest 7 42).encodeBytes.data.toList

/-- What is written for that line. -/
def replyLine : List UInt8 := ((deletionReply (some 7) true).encodeBytes.push 10).data.toList

theorem isText_requestLine : Text.isText requestLine = true :=
  Text.isText_toUTF8 (deletionRequest 7 42).encodeText

theorem lines_requestLine (rest : List UInt8) :
    Text.lines (requestLine ++ 10 :: rest) = requestLine :: Text.lines rest := by
  have hline : 10 ∉ requestLine := by decide +kernel
  have hend : Text.endedLine requestLine.reverse = requestLine := by decide +kernel
  rw [Text.lines_line hline, hend]

theorem answer_requestLine (hs : Session.ofConfig openConfig = .ok s) :
    s.answer requestLine = replyLine := by
  have hvalid := Config.Valid.of_ofText ofText_openConfigText
  obtain ⟨other, hother, hpolicy, -⟩ := hvalid.exists_ofConfig
  obtain rfl : other = s := Except.ok.inj (hother.symm.trans hs)
  have hsize : (deletionRequest 7 42).encodeBytes.size ≤ 131072 := by decide +kernel
  exact answer_deletionRequest hvalid hpolicy hsize
    ⟨"*:*", by simp [openConfig], "*", "*", rfl, .inl rfl, .inl rfl⟩

/-- Of two requests with the byte `ff` on a line between them the first one is answered. -/
theorem output_run_of_ofText_requestLine :
    Config.ofText openConfigText = .ok openConfig ∧
      ∃ t, run "sdlrpc.yaml" (.ok openConfigText)
          (requestLine ++ 10 :: 0xff :: 10 :: (requestLine ++ [10])) = .ok t ∧
        t.output = replyLine := by
  refine ⟨ofText_openConfigText, ?_⟩
  obtain ⟨s, hs, hrun, houtput, -, -⟩ := output_run_of_ofText ofText_openConfigText
  obtain ⟨t, ht, hwritten⟩ := hrun "sdlrpc.yaml"
    (requestLine ++ 10 :: 0xff :: 10 :: (requestLine ++ [10]))
  have hlines : Text.lines (requestLine ++ 10 :: 0xff :: 10 :: (requestLine ++ [10])) =
      [requestLine, [0xff], requestLine] := by
    rw [lines_requestLine]
    exact congrArg (requestLine :: [0xff] :: ·) (lines_requestLine [])
  have hnotText : Text.isText [0xff] = false := by decide +kernel
  refine ⟨t, ht, hwritten.trans ?_⟩
  rw [houtput, hlines, List.takeWhile_cons_of_pos isText_requestLine,
    List.takeWhile_cons_of_neg (by simp [hnotText]), List.flatMap_singleton,
    answer_requestLine hs]

/-- A request is not answered behind a line of the byte `ff`. -/
theorem not_forall_output_run_eq_flatMap : ¬ ∀ (text : String) (c : Config) (s : Session)
    (path : String) (input : List UInt8) (t : Transcript), Config.ofText text = .ok c →
    Session.ofConfig c = .ok s → run path (.ok text) input = .ok t →
    t.output = (Text.lines input).flatMap s.answer := by
  intro hall
  obtain ⟨s, hs, -, -⟩ := (Config.Valid.of_ofText ofText_openConfigText).exists_ofConfig
  have hlines : Text.lines (0xff :: 10 :: (requestLine ++ [10])) = [[0xff], requestLine] :=
    congrArg ([0xff] :: ·) (lines_requestLine [])
  have hnotText : Text.isText [0xff] = false := by decide +kernel
  obtain ⟨t, ht, hwritten⟩ := exists_run ofText_openConfigText hs "sdlrpc.yaml"
    (0xff :: 10 :: (requestLine ++ [10]))
  have hnone : t.output = [] := by
    rw [hwritten, s.output_eq, hlines, List.takeWhile_cons_of_neg (by simp [hnotText]),
      List.flatMap_nil]
  have hreply := hall openConfigText openConfig s "sdlrpc.yaml" _ t ofText_openConfigText hs ht
  rw [hnone, hlines, List.flatMap_cons, List.flatMap_singleton, answer_requestLine hs] at hreply
  exact absurd hreply (by simp [replyLine])

end Inspector

end HeadUnit
