import Philo.Protocol.AnthropicMessages.Answer
import Philo.Protocol.OpenAiChat.Answer

/-! Either response machine, and what both do with a structured answer: they validate the
text that they emitted, and finish only after that. -/

namespace Philo

open Result KeyedText AnthropicMessages

inductive ResponseSetup (Schema : Type) where
  | anthropicMessages (library : WireLibrary Schema)
      (context : StreamContext)
      (usageCompat : UsageCompat)
  | openAiChat (library : OpenAiChat.WireLibrary Schema)
      (context : OpenAiChat.StreamContext) (responseCompat : OpenAiChat.ResponseCompat)

namespace ResponseSetup

variable {Schema : Type}

def State : ResponseSetup Schema → Type
  | anthropicMessages .. => MessagesStateMachine Schema
  | openAiChat .. => OpenAiChat.ChatStateMachine Schema

def producer : (setup : ResponseSetup Schema) →
    Producer setup.State SseEvent AssistantEvent LlmError
  | anthropicMessages library _ _ => MessagesStateMachine.producer library
  | openAiChat library _ _ => OpenAiChat.ChatStateMachine.producer library

def initial (format : ResponseFormat Schema) (limits : ResponseLimits) :
    (setup : ResponseSetup Schema) → setup.State
  | anthropicMessages _ context usageCompat =>
    MessagesStateMachine.new context format limits usageCompat
  | openAiChat _ context responseCompat =>
    OpenAiChat.ChatStateMachine.new context format limits responseCompat

def terminal : (setup : ResponseSetup Schema) → setup.State → StructuredTerminal Schema
  | anthropicMessages .. => MessagesStateMachine.terminal
  | openAiChat .. => OpenAiChat.ChatStateMachine.terminal

def json : ResponseSetup Schema → JsonLibrary Schema
  | anthropicMessages library _ _ => library.toJsonLibrary
  | openAiChat library _ _ => library.toJsonLibrary

def schemaLimits (limits : ResponseLimits) : ResponseSetup Schema → SchemaLimits
  | anthropicMessages .. => .official
  | openAiChat .. => ⟨2 ^ 64 - 1, limits.maxSchemaDepth, limits.maxJsonArrayItems⟩

structure Answered (setup : ResponseSetup Schema) (format : ResponseFormat Schema)
    (limits : ResponseLimits) (final : setup.State) (emitted last : List AssistantEvent) :
    Prop where
  validated : (setup.terminal final).validated = true
  buffered : (setup.terminal final).textBuffer = some (answerText emitted)
  accepts : ∃ reason, last = [.done reason] ∧
    Succeeds (validateStructuredResponse setup.json format reason (answerText emitted)
      (startsTool emitted) (startsRefusal emitted) (setup.schemaLimits limits))

variable {format : ResponseFormat Schema} {limits : ResponseLimits} {inputs : List SseEvent}
  {emitted last : List AssistantEvent}

theorem textBuffer_new (structured : format ≠ .text) (schemaLimits : SchemaLimits)
    (byteLimit : Nat) (text : String) :
    (StructuredTerminal.new format schemaLimits byteLimit).textBuffer.map (· ++ text) =
      some text := by
  cases format with
  | text => exact absurd rfl structured
  | jsonObject | jsonSchema => simp [StructuredTerminal.new]

theorem answered (setup : ResponseSetup Schema) {final : setup.State}
    (structured : format ≠ .text)
    (accepted : setup.producer.run (setup.initial format limits) inputs =
      .ok (final, emitted))
    (finished : setup.producer.finish final = .ok last) :
    Answered setup format limits final emitted last := by
  cases setup with
  | anthropicMessages library context usageCompat =>
    have buffered := (run_spoken accepted).terminal.textBuffer.trans
      (textBuffer_new structured _ _ _)
    rcases finish_validated accepted finished with
      ⟨validated, reason, rfl, valid⟩
    rw [buffered] at valid
    exact ⟨validated, buffered, reason, rfl, valid⟩
  | openAiChat library context responseCompat =>
    have buffered := (OpenAiChat.run_spoken accepted).terminal.textBuffer.trans
      (textBuffer_new structured _ _ _)
    rcases OpenAiChat.finish_validated accepted finished with
      ⟨validated, reason, rfl, valid⟩
    rw [buffered] at valid
    exact ⟨validated, buffered, reason, rfl, valid⟩

end ResponseSetup

end Philo
