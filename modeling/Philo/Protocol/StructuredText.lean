import Philo.Domain.CollectorGrammar
import Philo.Protocol.AnthropicMessages.Agreement
import Philo.Protocol.Response

/-! The text that a machine validates against the text of the message that is collected
from its events. The machine joins text as it arrives and the collector joins it by block,
so the two agree as long as no text block starts inside another one. -/

namespace Philo

open Result KeyedText Collector

namespace ResponseSetup

variable {Schema : Type}

/-- The event starts a text block while another one is open. The OpenAI machine has only
one text block. -/
def OverlapsText : (setup : ResponseSetup Schema) → setup.State → SseEvent → Prop
  | anthropicMessages library _ _ => AnthropicMessages.OverlapsText library
  | openAiChat .. => fun _ _ => False

theorem run_inOrder {setup : ResponseSetup Schema} {format : ResponseFormat Schema}
    {limits : ResponseLimits} {inputs : List SseEvent} {final : setup.State}
    {emitted : List AssistantEvent}
    (apart : ∀ later event, setup.producer.Takes (setup.initial format limits) inputs later
      event → ¬ setup.OverlapsText later event)
    (accepted : setup.producer.run (setup.initial format limits) inputs =
      .ok (final, emitted)) : InOrder (textPieces emitted) := by
  cases setup with
  | anthropicMessages library context usageCompat =>
    have ordered := AnthropicMessages.Ordered.new context format limits usageCompat
    exact (AnthropicMessages.run_ordered apart ordered accepted).inOrder
  | openAiChat library context responseCompat => exact OpenAiChat.run_inOrder rfl accepted

/-- In every run that starts no text block inside another one, the text that the terminal
validated is the text of the message that the collector builds. -/
theorem validated_text_eq_collected (setup : ResponseSetup Schema)
    (format : ResponseFormat Schema) (limits : ResponseLimits) (inputs : List SseEvent)
    (final : setup.State) (emitted last : List AssistantEvent) (message : AssistantMessage)
    (structured : format ≠ .text)
    (accepted : setup.producer.run (setup.initial format limits) inputs =
      .ok (final, emitted))
    (finished : setup.producer.finish final = .ok last)
    (collected : consumer.collect .fresh (emitted ++ last) = .ok message)
    (apart : ∀ later event, setup.producer.Takes (setup.initial format limits) inputs later
      event → ¬ setup.OverlapsText later event) :
    (setup.terminal final).validated = true ∧
      (setup.terminal final).textBuffer = some message.text := by
  have answered := answered setup structured accepted finished
  rcases answered.accepts with ⟨reason, rfl, _⟩
  have sameText : textPieces (emitted ++ [.done reason]) = textPieces emitted := by
    rw [textPieces_append]
    exact List.append_nil _
  have inOrder : InOrder (textPieces (emitted ++ [.done reason])) := by
    rw [sameText]
    exact run_inOrder apart accepted
  refine ⟨answered.validated, ?_⟩
  rw [answered.buffered, text_of_collect inOrder collected, answerText, answerText,
    sameText]

end ResponseSetup

/-! ## Recorded streams -/

namespace AnthropicMessages

def recordedTextStart (index : UInt32) : Recorded where
  name := "content_block_start"
  data := "\x7b\"type\":\"content_block_start\",\"index\":" ++ toString index.toNat ++
    ",\"content_block\":\x7b\"type\":\"text\",\"text\":\"\"\x7d\x7d"
  value := .object [("content_block", .object [("text", .string ""), ("type", .string "text")]),
    ("index", .number (.posInt index.toUInt64)), ("type", .string "content_block_start")]
  wire := .contentBlockStart ⟨"content_block_start", index, .text ""⟩

def recordedTextDelta (index : UInt32) (text : String) : Recorded where
  name := "content_block_delta"
  data := "\x7b\"type\":\"content_block_delta\",\"index\":" ++ toString index.toNat ++
    ",\"delta\":\x7b\"type\":\"text_delta\",\"text\":\"" ++ text ++ "\"\x7d\x7d"
  value := .object [("delta", .object [("text", .string text), ("type", .string "text_delta")]),
    ("index", .number (.posInt index.toUInt64)), ("type", .string "content_block_delta")]
  wire := .contentBlockDelta ⟨"content_block_delta", index, .textDelta text⟩

def recordedStopAt (index : UInt32) : Recorded where
  name := "content_block_stop"
  data := "\x7b\"type\":\"content_block_stop\",\"index\":" ++ toString index.toNat ++ "\x7d"
  value := .object [("index", .number (.posInt index.toUInt64)),
    ("type", .string "content_block_stop")]
  wire := .contentBlockStop ⟨"content_block_stop", index⟩

def overlappingRun : List Recorded :=
  [recordedStart, recordedTextStart 0, recordedTextStart 1, recordedTextDelta 1 "\x7b",
    recordedTextDelta 0 "\x7d", recordedStopAt 0, recordedStopAt 1,
    recordedReason "end_turn", recordedEnd]

def oneBlockRun : List Recorded :=
  [recordedStart, recordedTextStart 0, recordedTextDelta 0 "\x7b", recordedTextDelta 0 "\x7d",
    recordedStopAt 0, recordedReason "end_turn", recordedEnd]

end AnthropicMessages

namespace AnthropicMessages

theorem oneBlockRun_apart (later : MessagesStateMachine Unit) (event : SseEvent)
    (takes : (MessagesStateMachine.producer (recordedLibrary oneBlockRun)).Takes
      (.new recordedContext .jsonObject .official .strictStableFields)
      (oneBlockRun.map Recorded.sseEvent) later event) :
    ¬ OverlapsText (recordedLibrary oneBlockRun) later event := by
  have plain : ∀ record ∈ recordedStart :: oneBlockRun.drop 2,
      decodeEvent (recordedLibrary oneBlockRun) record.sseEvent = .ok record.wire ∧
        record.wire.startsText = false := by
    simp only [oneBlockRun, List.drop_succ_cons, List.drop_zero, List.forall_mem_cons]
    exact ⟨⟨rfl, rfl⟩, ⟨rfl, rfl⟩, ⟨rfl, rfl⟩, ⟨rfl, rfl⟩, ⟨rfl, rfl⟩, ⟨rfl, rfl⟩, by simp⟩
  have silent : ∀ record ∈ recordedStart :: oneBlockRun.drop 2, ∀ state,
      ¬ OverlapsText (recordedLibrary oneBlockRun) state record.sseEvent := by
    rintro record member state ⟨wire, _, _, decoded, starts, _⟩
    rcases plain record member with ⟨decodes, notText⟩
    cases decoded.symm.trans decodes
    exact absurd (starts.symm.trans notText) (by decide)
  rcases takes with _ | ⟨started, takes⟩
  · exact silent recordedStart (by simp) _
  · rcases takes with _ | ⟨_, takes⟩
    · rintro ⟨_, wireIndex, index, _, _, isOpen⟩
      have noneYet : ((MessagesStateMachine.producer (recordedLibrary oneBlockRun)).accept
          (.new recordedContext .jsonObject .official .strictStableFields)
          recordedStart.sseEvent).map (fun outcome => openTextAt outcome.1 wireIndex) =
            .ok none := rfl
      rw [started] at noneYet
      cases (Except.ok.inj noneYet).symm.trans isOpen
    · rcases List.mem_map.mp takes.mem with ⟨record, member, rfl⟩
      exact silent record (List.mem_cons_of_mem _ member) _

end AnthropicMessages

open AnthropicMessages in
theorem oneBlockRun_text_agrees :
    ∃ final emitted last message,
      (MessagesStateMachine.producer (recordedLibrary oneBlockRun)).run
          (.new recordedContext .jsonObject .official .strictStableFields)
          (oneBlockRun.map Recorded.sseEvent) = .ok (final, emitted) ∧
        final.finish = .ok last ∧
          consumer.collect .fresh (emitted ++ last) = .ok message ∧
            final.terminal.validated = true ∧
              final.terminal.textBuffer = some message.text := by
  refine ⟨_, _, _, _, rfl, rfl, rfl, ?_⟩
  exact ResponseSetup.validated_text_eq_collected
    (.anthropicMessages (recordedLibrary oneBlockRun) recordedContext .strictStableFields)
    .jsonObject .official (oneBlockRun.map Recorded.sseEvent) _ _ _ _ (by simp) rfl rfl rfl
    oneBlockRun_apart

open AnthropicMessages in
/-- The machine validated an empty object, and the message is not even JSON. -/
theorem overlappingRun_text_differs :
    ∃ final emitted last message,
      (MessagesStateMachine.producer (recordedLibrary overlappingRun)).run
          (.new recordedContext .jsonObject .official .strictStableFields)
          (overlappingRun.map Recorded.sseEvent) = .ok (final, emitted) ∧
        final.finish = .ok last ∧
          consumer.collect .fresh (emitted ++ last) = .ok message ∧
            final.terminal.validated = true ∧
              final.terminal.textBuffer = some "\x7b\x7d" ∧ message.text = "\x7d\x7b" :=
  ⟨_, _, _, _, rfl, rfl, rfl, rfl, rfl, rfl⟩

end Philo
