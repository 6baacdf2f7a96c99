import Philo.Domain.Event
import Philo.Protocol.OpenAiChat.Wire
import Philo.Protocol.StructuredTerminal

/-! The stateless half of the OpenAI Chat machine: what `usage.rs`, `terminal.rs`
and the compatibility hooks compute from one chunk. -/

namespace Philo.OpenAiChat

open Result Std

def protocol (message : String) : LlmError := .protocol (.atStage .protocol message)

def categoryLabel : JsonErrorCategory → String
  | .io => "I/O"
  | .syntactic => "syntax"
  | .data => "data"
  | .eof => "EOF"

def jsonError (error : JsonError) : LlmError :=
  .protocol (.atStage .json ("JSON " ++ categoryLabel error.category ++ " error at line " ++
    toString error.line ++ " column " ++ toString error.column))

/-! ## Compatibility hooks -/

def normalizeToolArguments {Schema : Type} (library : WireLibrary Schema)
    (compat : ToolArgumentsCompat) : ToolArgumentsWire → Except LlmError String
  | .string value => .ok value
  | .object value =>
    match compat with
    | .stringOrObject =>
      mapError (fun _ => protocol "failed to normalize tool argument object")
        (library.toString value)
    | .jsonString => .error (protocol "tool arguments must be a JSON string for this profile")

def validateInlineError (present : Bool) (policy : InlineErrorCompat) :
    Except LlmError Unit :=
  if present = false then .ok ()
  else match policy with
    | .reject => .error (protocol "provider returned a JSON error object")

/-! ## Usage -/

def optionalTokenCount (value : Option Int64) (field : String) :
    Except LlmError TokenCount :=
  match value with
  | none => .ok .unknown
  | some raw => do
    reject (raw < 0) (protocol (field ++ " must be non-negative"))
    .ok (.known raw.toUInt64)

/-- The reasoning count, dropped when the profile asks for it and it exceeds the
output. -/
def consistentReasoning (dropInconsistentReasoning : Bool) (output reasoning : TokenCount) :
    TokenCount :=
  match dropInconsistentReasoning, output, reasoning with
  | true, .known outputCount, .known reasoningCount =>
    if outputCount < reasoningCount then .unknown else .known reasoningCount
  | _, _, reasoning => reasoning

def parseUsageDetails (wire : UsageWire) (dropInconsistentReasoning : Bool) :
    Except LlmError (Option UsageDetails) := do
  let input ← optionalTokenCount wire.promptTokens "usage.prompt_tokens"
  let output ← optionalTokenCount wire.completionTokens "usage.completion_tokens"
  let total ← optionalTokenCount wire.totalTokens "usage.total_tokens"
  let cachedInput ← optionalTokenCount
    (wire.promptTokensDetails.bind PromptTokensDetailsWire.cachedTokens)
    "usage.prompt_tokens_details.cached_tokens"
  let cacheWrite ← optionalTokenCount
    (wire.promptTokensDetails.bind PromptTokensDetailsWire.cacheWriteTokens)
    "usage.prompt_tokens_details.cache_write_tokens"
  let reasoning ← optionalTokenCount
    (wire.completionTokensDetails.bind CompletionTokensDetailsWire.reasoningTokens)
    "usage.completion_tokens_details.reasoning_tokens"
  let details : UsageDetails := {
    inputTokens := input
    outputTokens := output
    totalTokens := total
    cachedInputTokens := cachedInput
    cacheWriteTokens := cacheWrite
    reasoningTokens := consistentReasoning dropInconsistentReasoning output reasoning }
  mapError (fun error => protocol error.message) details.validateRelationships
  if details.hasAnyKnown = false then .ok none else .ok (some details)

def coreUsageFromDetails (details : UsageDetails) : Except String Usage :=
  match details.inputTokens, details.outputTokens, details.totalTokens with
  | .known input, .known output, .known total =>
    mapError (fun _ => "usage total does not equal input + output")
      (Usage.new input output total)
  | _, _, _ => .error "core usage counters are incomplete"

/-! ## Finish reasons -/

/-- The longest run of characters within `maxBytes`: the text up to the last
character boundary that fits. -/
def takeBytes (maxBytes : Nat) : List Char → List Char
  | [] => []
  | character :: rest =>
    if character.utf8Size ≤ maxBytes then
      character :: takeBytes (maxBytes - character.utf8Size) rest
    else []

def boundedLabel (value : String) (maxBytes : Nat) : String :=
  if Text.len value ≤ maxBytes then value
  else String.ofList (takeBytes maxBytes value.toList) ++ "..."

def parseFinishReason (raw : String) : Except LlmError FinishReason :=
  match raw with
  | "stop" => .ok .stop
  | "length" => .ok .length
  | "content_filter" => .ok .contentFilter
  | "tool_calls" => .ok .toolCalls
  | "function_call" => .error (.unsupportedResponseSemantics raw)
  | _ => .error (.unknownFinishReason (boundedLabel raw 64))

def emptyExtensionValue : Json → Bool
  | .null => true
  | .string value => value.isEmpty
  | .array items => items.isEmpty
  | .object entries => entries.isEmpty
  | .bool _ | .number _ => false

def deltaIsEmpty (delta : DeltaWire) : Bool :=
  delta.role.all (· == "assistant") &&
    delta.content.all String.isEmpty &&
    delta.refusal.all String.isEmpty &&
    delta.toolCalls.all List.isEmpty &&
    delta.functionCall.isNone &&
    delta.extra.all fun (name, value) =>
      ["reasoning", "reasoning_content", "reasoning_details"].contains name &&
        emptyExtensionValue value

/-! ## Validating a chunk before anything is applied -/

structure PreparedChunk where
  finishReason : Option FinishReason
  duplicateFinish : Bool
  usage : Option UsageDetails

namespace PreparedChunk

/-- A choice after the finish reason: at most one payload-free repeat of it. -/
def validateRepeatedChoice (choice : ChoiceWire) (observedFinish : FinishReason)
    (duplicateFinishSeen : Bool) (finishCompat : FinishReasonCompat) :
    Except LlmError (Option FinishReason × Bool) := do
  let rawFinish ← okOr choice.finishReason
    (protocol "choice data received after finish reason")
  reject (finishCompat = .strictOpenAi) (protocol "duplicate finish reason")
  reject (duplicateFinishSeen = true) (protocol "multiple duplicate finish reasons")
  let repeatedFinish ← parseFinishReason rawFinish
  reject (repeatedFinish ≠ observedFinish) (protocol "conflicting duplicate finish reason")
  reject (choice.delta.all deltaIsEmpty = false)
    (protocol "choice data received after finish reason")
  .ok (none, true)

def validateDelta (delta : DeltaWire) : Except LlmError Unit := do
  reject (delta.functionCall.isSome = true) (.unsupportedResponseSemantics "function_call")
  reject (∃ role ∈ delta.role, role ≠ "assistant")
    (.unsupportedResponseSemantics "delta.role")

def validateChoice (choice : ChoiceWire) (observedFinish : Option FinishReason)
    (duplicateFinishSeen : Bool) (finishCompat : FinishReasonCompat) :
    Except LlmError (Option FinishReason × Bool) := do
  reject (choice.index ≠ 0) (.unsupportedResponseSemantics "nonzero choice index")
  match observedFinish with
  | some observedFinish =>
    validateRepeatedChoice choice observedFinish duplicateFinishSeen finishCompat
  | none => do
    choice.delta.elim (.ok ()) validateDelta
    match choice.finishReason with
    | none => .ok (none, false)
    | some raw => do
      let finishReason ← parseFinishReason raw
      .ok (some finishReason, false)

def validateUsage (usage : Option UsageWire) (usageCompat : UsageCompat) :
    Except LlmError (Option UsageDetails) :=
  match usage with
  | none => .ok none
  | some usage => parseUsageDetails usage (decide (usageCompat = .openAiDropInconsistentReasoning))

def validate (chunk : ChatCompletionChunkWire) (observedFinish : Option FinishReason)
    (duplicateFinishSeen : Bool) (finishCompat : FinishReasonCompat)
    (usageCompat : UsageCompat) : Except LlmError PreparedChunk := do
  reject (1 < chunk.choices.length) (.unsupportedResponseSemantics "multiple choices")
  reject (chunk.choices.isEmpty = true ∧ chunk.usage.isNone = true)
    (protocol "chunk has neither a choice nor usage")
  let (finishReason, duplicateFinish) ← chunk.choices.head?.elim (.ok (none, false))
    fun choice => validateChoice choice observedFinish duplicateFinishSeen finishCompat
  let usage ← validateUsage chunk.usage usageCompat
  .ok { finishReason, duplicateFinish, usage }

end PreparedChunk

/-! ## Diagnostics -/

def maxRecordedUnknownFields : Nat := 256
def truncatedUnknownFields : String := "diagnostic.<truncated>"

def safeFieldName (name : String) : String :=
  if Text.len name ≤ 64 ∧ Text.allAsciiAlphanumericOr ['_', '-', '.'] name = true then name
  else "<invalid-field-name>"

/-- Records names until one place is left, which the truncation marker takes. -/
def recordFieldNames (destination : TreeSet String) (scope : String) : Extra → TreeSet String
  | [] => destination
  | (name, _) :: rest =>
    if maxRecordedUnknownFields - 1 ≤ destination.size then
      destination.insert truncatedUnknownFields
    else
      recordFieldNames (destination.insert (scope ++ "." ++ safeFieldName name)) scope rest

end Philo.OpenAiChat
