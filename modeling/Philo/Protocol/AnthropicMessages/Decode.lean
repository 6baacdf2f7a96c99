import Philo.Domain.Event
import Philo.Protocol.AnthropicMessages.Wire
import Philo.Protocol.StructuredTerminal

/-! The stateless half of the Anthropic Messages machine: decoding one event and
folding its usage counters. -/

namespace Philo.AnthropicMessages

open Result

def maxEventTypeBytes : Nat := 128

inductive UsageCompat where
  | strictStableFields
  | allowMonotonicStableFields
  deriving DecidableEq

def protocol (message : String) : LlmError := .protocol (.atStage .protocol message)

def jsonError (error : JsonError) : LlmError :=
  .protocol (.atStage .json ("Anthropic event JSON error at line " ++
    toString error.line ++ " column " ++ toString error.column))

def validateKind (actual expected : String) : Except LlmError Unit :=
  reject (actual ≠ expected)
    (protocol "Anthropic decoded event type does not match expected event")

def jsonEventType {Schema : Type} (library : WireLibrary Schema) (data : String) :
    Except LlmError String := do
  let value ← mapError jsonError (library.fromStr data)
  okOr ((value.get? "type").bind Json.asStr?) (protocol "Anthropic event JSON omitted type")

/-! ## Usage snapshots -/

def usageDetails (snapshot : UsageWire) : Except LlmError UsageDetails := do
  let input ←
    match snapshot.inputTokens, snapshot.cacheCreationInputTokens,
        snapshot.cacheReadInputTokens with
    | some input, some write, some read =>
      okOr (((checkedAddU64 input write).bind fun value => checkedAddU64 value read).map
        TokenCount.known) (protocol "Anthropic input usage overflow")
    | _, _, _ => .ok .unknown
  let details : UsageDetails := {
    inputTokens := input
    outputTokens := .ofOption snapshot.outputTokens
    totalTokens := .unknown
    cachedInputTokens := .ofOption snapshot.cacheReadInputTokens
    cacheWriteTokens := .ofOption snapshot.cacheCreationInputTokens
    reasoningTokens := .ofOption snapshot.thinkingTokens }
  mapError (fun _ => protocol "inconsistent Anthropic usage snapshot")
    details.validateRelationships
  .ok details

def mergeStableCount (previous next : Option UInt64) (compat : UsageCompat) :
    Except LlmError (Option UInt64) :=
  match previous, next with
  | some left, some right =>
    if left < right ∧ compat = .allowMonotonicStableFields then .ok (some right)
    else if left ≠ right then
      .error (protocol "Anthropic stable usage field changed within one stream")
    else .ok (some left)
  | some value, none | none, some value => .ok (some value)
  | none, none => .ok none

def mergeCumulativeCount (previous next : Option UInt64) :
    Except LlmError (Option UInt64) :=
  match previous, next with
  | some left, some right =>
    if right < left then
      .error (protocol "Anthropic cumulative usage field decreased within one stream")
    else .ok (some right)
  | none, some right => .ok (some right)
  | some value, none => .ok (some value)
  | none, none => .ok none

def mergeUsageSnapshot (previous next : UsageWire) (compat : UsageCompat) :
    Except LlmError UsageWire := do
  let inputTokens ← mergeStableCount previous.inputTokens next.inputTokens compat
  let outputTokens ← mergeCumulativeCount previous.outputTokens next.outputTokens
  let cacheCreationInputTokens ←
    mergeStableCount previous.cacheCreationInputTokens next.cacheCreationInputTokens compat
  let cacheReadInputTokens ←
    mergeStableCount previous.cacheReadInputTokens next.cacheReadInputTokens compat
  let thinkingTokens ← mergeCumulativeCount previous.thinkingTokens next.thinkingTokens
  .ok { inputTokens, outputTokens, cacheCreationInputTokens, cacheReadInputTokens, thinkingTokens }

def boundedErrorKind (value : String) : Except LlmError String := do
  reject (value = "" ∨ maxEventTypeBytes < Text.len value ∨
      Text.allAsciiAlphanumericOr ['_'] value = false)
    (protocol "invalid Anthropic stream error type")
  .ok value

def boundedFinishReason (value : String) : Except LlmError String := do
  reject (value = "" ∨ maxEventTypeBytes < Text.len value ∨
      Text.allAsciiAlphanumericOr ['_', '-'] value = false)
    (protocol "invalid Anthropic stop reason label")
  .ok value

def stopReason (raw : String) : Except LlmError FinishReason :=
  match raw with
  | "end_turn" | "stop_sequence" => .ok .stop
  | "max_tokens" => .ok .length
  | "tool_use" => .ok .toolCalls
  | "pause_turn" => .error (.unsupportedResponseSemantics "pause_turn")
  | "refusal" | "model_context_window_exceeded" => .error (.unknownFinishReason raw)
  | _ => do
    let label ← boundedFinishReason raw
    .error (.unknownFinishReason label)

/-- Checks the event name against the JSON type and parses the payload that the
name calls for. -/
def decodeEvent {Schema : Type} (library : WireLibrary Schema) (event : SseEvent) :
    Except LlmError WireEvent := do
  let eventName ← okOr event.eventType
    (protocol "Anthropic SSE event is missing its event name")
  reject (maxEventTypeBytes < Text.len eventName)
    (protocol "Anthropic SSE event name exceeds resource limit")
  let jsonType ← jsonEventType library event.data
  reject (eventName ≠ jsonType)
    (protocol "Anthropic SSE event name does not match JSON event type")
  match eventName with
  | "message_start" =>
    mapError jsonError (WireEvent.messageStart <$> library.messageStart event.data)
  | "content_block_start" =>
    mapError jsonError (.contentBlockStart <$> library.contentBlockStart event.data)
  | "content_block_delta" =>
    mapError jsonError (.contentBlockDelta <$> library.contentBlockDelta event.data)
  | "content_block_stop" => mapError jsonError (.contentBlockStop <$> library.indexed event.data)
  | "message_delta" => mapError jsonError (.messageDelta <$> library.messageDelta event.data)
  | "message_stop" => mapError jsonError (.messageStop <$> library.typeOnly event.data)
  | "ping" => mapError jsonError (.ping <$> library.typeOnly event.data)
  | "error" => mapError jsonError (.error <$> library.errorEvent event.data)
  | _ => .ok .other

end Philo.AnthropicMessages
