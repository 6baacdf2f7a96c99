import Philo.Domain.Schema.Budget
import Philo.Domain.Structured

/-! The bounded accumulator that both protocol machines use to validate
structured output once, right before `Done`. -/

namespace Philo

open Result

structure StructuredTerminal (Schema : Type) where
  responseFormat : ResponseFormat Schema
  schemaLimits : SchemaLimits
  byteLimit : Nat
  textBuffer : Option String
  validated : Bool

namespace StructuredTerminal

variable {Schema : Type}

def new (responseFormat : ResponseFormat Schema) (schemaLimits : SchemaLimits)
    (byteLimit : Nat) : StructuredTerminal Schema where
  responseFormat
  schemaLimits
  byteLimit
  textBuffer := match responseFormat with
    | .text => none
    | .jsonObject | .jsonSchema _ => some ""
  validated := false

private def tooLarge (message : String) : LlmError :=
  .structuredOutput ⟨"structured_output", .tooLarge, none, message⟩

/-- `push_answer_text`. Nothing is buffered, or limited, for free-form text. -/
def pushAnswerText (terminal : StructuredTerminal Schema) (content : String) :
    Except LlmError (StructuredTerminal Schema) :=
  match terminal.textBuffer with
  | none => .ok terminal
  | some buffer => do
    let next ← okOr (checkedAdd (Text.len buffer) (Text.len content))
      (tooLarge "structured output byte count overflowed")
    reject (terminal.byteLimit < next)
      (tooLarge "structured output exceeds the configured byte limit")
    .ok { terminal with textBuffer := some (buffer ++ content) }

def validateBeforeDone (library : JsonLibrary Schema)
    (terminal : StructuredTerminal Schema) (finishReason : FinishReason)
    (hasTools hasRefusal : Bool) : Except LlmError (StructuredTerminal Schema) := do
  reject (terminal.validated = true)
    (.protocol (.new "structured terminal validation was attempted more than once"))
  let _ ← validateStructuredResponse library terminal.responseFormat finishReason
    (terminal.textBuffer.getD "") hasTools hasRefusal terminal.schemaLimits
  .ok { terminal with validated := true }

/-- After more text arrived: the terminal differs at most in what it has buffered and in
whether it has validated. -/
structure Extends (terminal next : StructuredTerminal Schema) (text : String) : Prop where
  responseFormat : next.responseFormat = terminal.responseFormat
  schemaLimits : next.schemaLimits = terminal.schemaLimits
  textBuffer : next.textBuffer = terminal.textBuffer.map (· ++ text)

theorem Extends.refl (terminal : StructuredTerminal Schema) : terminal.Extends terminal "" := by
  refine ⟨rfl, rfl, ?_⟩
  simp

theorem Extends.trans {terminal next final : StructuredTerminal Schema} {first second : String}
    (before : terminal.Extends next first) (after : next.Extends final second) :
    terminal.Extends final (first ++ second) := by
  refine ⟨after.responseFormat.trans before.responseFormat,
    after.schemaLimits.trans before.schemaLimits, ?_⟩
  rw [after.textBuffer, before.textBuffer, Option.map_map]
  simp [Function.comp_def, String.append_assoc]

theorem extends_of_pushAnswerText {terminal next : StructuredTerminal Schema} {text : String}
    (pushed : terminal.pushAnswerText text = .ok next) :
    terminal.Extends next text ∧ next.validated = terminal.validated := by
  unfold pushAnswerText at pushed
  split at pushed
  · next absent =>
      cases pushed
      exact ⟨⟨rfl, rfl, by simp [absent]⟩, rfl⟩
  · next buffer present =>
      simp only [bind_eq_ok, okOr_eq_ok, reject_eq_ok, exists_const, Except.ok.injEq] at pushed
      rcases pushed with ⟨_, _, _, rfl⟩
      exact ⟨⟨rfl, rfl, by simp [present]⟩, rfl⟩

theorem validateBeforeDone_eq_ok {library : JsonLibrary Schema}
    {terminal next : StructuredTerminal Schema} {finishReason : FinishReason}
    {hasTools hasRefusal : Bool} :
    terminal.validateBeforeDone library finishReason hasTools hasRefusal = .ok next ↔
      terminal.validated = false ∧
        Succeeds (validateStructuredResponse library terminal.responseFormat finishReason
          (terminal.textBuffer.getD "") hasTools hasRefusal terminal.schemaLimits) ∧
        { terminal with validated := true } = next := by
  simp only [validateBeforeDone, bind_eq_ok, reject_eq_ok, exists_const, Except.ok.injEq,
    Bool.not_eq_true, exists_and_right]
  rfl

end StructuredTerminal

structure ResponseLimits where
  maxStructuredOutputBytes : Nat
  maxToolCalls : Nat
  maxToolArgumentsBytes : Nat
  maxAllToolArgumentsBytes : Nat
  maxSchemaDepth : Nat
  maxJsonArrayItems : Nat
  deriving DecidableEq

def ResponseLimits.official : ResponseLimits :=
  ⟨16 * 1024 * 1024, 64, 1024 * 1024, 4 * 1024 * 1024, 32, 65536⟩

def ResponseLimits.Allows (limits : ResponseLimits) (value : Json) : Prop :=
  ToolSchema.jsonDepth value ≤ limits.maxSchemaDepth ∧
    ∀ items, (Json.array items).Within value → items.length ≤ limits.maxJsonArrayItems

structure SseEvent where
  data : String
  eventType : Option String
  deriving DecidableEq

end Philo
