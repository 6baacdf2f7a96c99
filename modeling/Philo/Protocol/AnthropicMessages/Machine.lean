import Philo.Protocol.AnthropicMessages.Decode

/-! The Anthropic Messages response state machine. A failing call leaves no
state behind: the stream driver drops the machine with the first error. -/

namespace Philo.AnthropicMessages

open Result Std

def maxContentBlocks : Nat := 4096
def maxStreamEvents : Nat := 100000
def maxOpaqueThinkingBytes : Nat := 4 * 1024 * 1024

inductive Phase where
  | awaitMessageStart | streamingMessage | awaitMessageStop | terminal
  deriving DecidableEq

inductive BlockState where
  | text (index : ContentIndex)
  | toolUse (index : ContentIndex) (id : ToolCallId) (name : ToolName) (arguments : String)
  | thinking (index : ContentIndex) (signature : String)
  | redacted (index : ContentIndex) (data : String)
  | unsupported

structure StreamContext where
  localRequestId : LocalRequestId
  providerRequestId : Option ProviderRequestId
  source : SourceIdentity

structure MessagesStateMachine (Schema : Type) where
  context : StreamContext
  limits : ResponseLimits
  phase : Phase
  blocks : TreeMap UInt32 BlockState
  blocksStarted : Nat
  eventsSeen : Nat
  nextContentIndex : UInt32
  toolCalls : Nat
  allToolArgumentBytes : Nat
  terminal : StructuredTerminal Schema
  answerTextBytes : Nat
  thinkingTextBytes : Nat
  opaqueThinkingBytes : Nat
  usageSnapshot : Option UsageWire
  usageCompat : UsageCompat
  usageEmitted : Bool
  finishReason : Option FinishReason
  generationId : Option GenerationId

namespace MessagesStateMachine

variable {Schema : Type}

def new (context : StreamContext) (responseFormat : ResponseFormat Schema)
    (limits : ResponseLimits) (usageCompat : UsageCompat) : MessagesStateMachine Schema where
  context
  limits
  phase := .awaitMessageStart
  blocks := ∅
  blocksStarted := 0
  eventsSeen := 0
  nextContentIndex := 0
  toolCalls := 0
  allToolArgumentBytes := 0
  terminal := .new responseFormat .official limits.maxStructuredOutputBytes
  answerTextBytes := 0
  thinkingTextBytes := 0
  opaqueThinkingBytes := 0
  usageSnapshot := none
  usageCompat
  usageEmitted := false
  finishReason := none
  generationId := none

abbrev Outcome (Schema : Type) := MessagesStateMachine Schema × List AssistantEvent

def requireStreaming (machine : MessagesStateMachine Schema) (event : String) :
    Except LlmError Unit :=
  reject (machine.phase ≠ .streamingMessage)
    (protocol ("Anthropic " ++ event ++ " is invalid in the current message phase"))

def allocateContentIndex (machine : MessagesStateMachine Schema) :
    Except LlmError (MessagesStateMachine Schema × ContentIndex) := do
  let nextContentIndex ← okOr (checkedAddU32 machine.nextContentIndex 1)
    (protocol "Anthropic content index overflow")
  .ok ({ machine with nextContentIndex }, machine.nextContentIndex)

def pushText (machine : MessagesStateMachine Schema) (index : ContentIndex)
    (text : String) : Except LlmError (Outcome Schema) := do
  let next ← okOr (checkedAdd machine.answerTextBytes (Text.len text))
    (protocol "Anthropic text size overflow")
  reject (machine.limits.maxStructuredOutputBytes < next)
    (protocol "Anthropic response text exceeds resource limit")
  let terminal ← machine.terminal.pushAnswerText text
  .ok ({ machine with answerTextBytes := next, terminal },
    if text = "" then [] else [.textDelta index text])

def pushThinking (machine : MessagesStateMachine Schema) (index : ContentIndex)
    (thinking : String) : Except LlmError (Outcome Schema) := do
  let next ← okOr (checkedAdd machine.thinkingTextBytes (Text.len thinking))
    (protocol "Anthropic thinking text size overflow")
  reject (machine.limits.maxStructuredOutputBytes < next)
    (protocol "Anthropic thinking text exceeds resource limit")
  .ok ({ machine with thinkingTextBytes := next },
    if thinking = "" then [] else [.thinkingDelta index thinking])

def reserveOpaqueThinking (machine : MessagesStateMachine Schema) (bytes : Nat) :
    Except LlmError (MessagesStateMachine Schema) := do
  let next ← okOr (checkedAdd machine.opaqueThinkingBytes bytes)
    (protocol "Anthropic opaque thinking size overflow")
  reject (maxOpaqueThinkingBytes < next)
    (protocol "Anthropic opaque thinking exceeds resource limit")
  .ok { machine with opaqueThinkingBytes := next }

def sourceIdentity (machine : MessagesStateMachine Schema) :
    Except LlmError SourceIdentity := do
  let generationId ← okOr machine.generationId
    (protocol "Anthropic thinking source omitted generation id")
  let protocolId ← mapError (fun _ => protocol "invalid Anthropic protocol identity")
    (ValidatedId.new .protocol "anthropic-messages")
  .ok {
    provider := machine.context.source.provider
    model := machine.context.source.model
    protocol := protocolId
    generationId := some generationId }

def messageStart (machine : MessagesStateMachine Schema) (wire : MessageStartEventWire) :
    Except LlmError (Outcome Schema) := do
  validateKind wire.kind "message_start"
  reject (machine.phase ≠ .awaitMessageStart)
    (protocol "duplicate or late Anthropic message_start")
  reject (wire.message.model = "" ∨ Text.trim wire.message.model ≠ wire.message.model)
    (protocol "invalid Anthropic response model identifier")
  let generationId ← mapError (fun _ => protocol "invalid Anthropic generation id")
    (ValidatedId.new .generation wire.message.id)
  .ok ({ machine with
      generationId := some generationId
      usageSnapshot := some wire.message.usage
      phase := .streamingMessage },
    [.start machine.context.localRequestId machine.context.providerRequestId
      (some generationId)])

/-! ## Opening a block

Each kind of block returns the machine after its counters moved, the state to
store for the block, and the events. -/

abbrev Opened (Schema : Type) := MessagesStateMachine Schema × BlockState × List AssistantEvent

def openText (machine : MessagesStateMachine Schema) (text : String) :
    Except LlmError (Opened Schema) := do
  let (machine, index) ← machine.allocateContentIndex
  if text = "" then .ok (machine, .text index, [.textStart index])
  else do
    let (machine, pushed) ← machine.pushText index text
    .ok (machine, .text index, .textStart index :: pushed)

def initialInput (library : WireLibrary Schema) (input : Json) : String :=
  if input.isEmptyObject then "" else library.render input

def openToolUse (library : WireLibrary Schema) (machine : MessagesStateMachine Schema)
    (wireIndex : WireToolIndex) (id name : String) (input : Json) :
    Except LlmError (Opened Schema) := do
  reject (machine.limits.maxToolCalls ≤ machine.toolCalls)
    (protocol "Anthropic tool call limit exceeded")
  let id ← mapError (fun _ => protocol "invalid Anthropic tool call id") (ToolCallId.new id)
  let name ← mapError (fun _ => protocol "invalid Anthropic tool name") (ToolName.new name)
  let (machine, index) ← machine.allocateContentIndex
  let arguments := initialInput library input
  let allToolArgumentBytes ←
    okOr (checkedAdd machine.allToolArgumentBytes (Text.len arguments))
      (protocol "Anthropic tool argument size overflow")
  reject (machine.limits.maxToolArgumentsBytes < Text.len arguments ∨
      machine.limits.maxAllToolArgumentsBytes < allToolArgumentBytes)
    (protocol "Anthropic tool arguments exceed resource limit")
  .ok ({ machine with toolCalls := machine.toolCalls + 1, allToolArgumentBytes },
    .toolUse index id name arguments,
    [.toolCallStart index wireIndex (some id),
      .toolCallDelta index wireIndex (some name.value) none] ++
      if input.isEmptyObject then []
      else [.toolCallDelta index wireIndex none (some arguments)])

def openThinking (machine : MessagesStateMachine Schema) (thinking : String) :
    Except LlmError (Opened Schema) := do
  let (machine, index) ← machine.allocateContentIndex
  if thinking = "" then .ok (machine, .thinking index "", [.thinkingStart index])
  else do
    let (machine, pushed) ← machine.pushThinking index thinking
    .ok (machine, .thinking index "", .thinkingStart index :: pushed)

def openRedacted (machine : MessagesStateMachine Schema) (data : String) :
    Except LlmError (Opened Schema) := do
  let machine ← machine.reserveOpaqueThinking (Text.len data)
  let (machine, index) ← machine.allocateContentIndex
  .ok (machine, .redacted index data, [.thinkingStart index])

def openBlock (library : WireLibrary Schema) (machine : MessagesStateMachine Schema)
    (wireIndex : UInt32) : ContentBlockStartWire → Except LlmError (Opened Schema)
  | .text text => machine.openText text
  | .toolUse id name input => openToolUse library machine wireIndex id name input
  | .thinking thinking => machine.openThinking thinking
  | .redactedThinking data => machine.openRedacted data
  | .unknown => .ok (machine, .unsupported, [])

def blockStart (library : WireLibrary Schema) (machine : MessagesStateMachine Schema)
    (wire : ContentBlockStartEventWire) : Except LlmError (Outcome Schema) := do
  validateKind wire.kind "content_block_start"
  machine.requireStreaming "content_block_start"
  reject (maxContentBlocks ≤ machine.blocksStarted)
    (protocol "Anthropic content block limit exceeded")
  reject (wire.index ∈ machine.blocks)
    (protocol "duplicate Anthropic content block index")
  let (machine, block, events) ← openBlock library machine wire.index wire.contentBlock
  .ok ({ machine with
      blocks := machine.blocks.insert wire.index block
      blocksStarted := machine.blocksStarted + 1 },
    events)

/-! ## Deltas -/

def appendInput (machine : MessagesStateMachine Schema) (wireIndex : UInt32)
    (index : ContentIndex) (id : ToolCallId) (name : ToolName)
    (arguments partialJson : String) : Except LlmError (Outcome Schema) := do
  let nextOne ← okOr (checkedAdd (Text.len arguments) (Text.len partialJson))
    (protocol "Anthropic tool argument size overflow")
  let nextAll ← okOr (checkedAdd machine.allToolArgumentBytes (Text.len partialJson))
    (protocol "Anthropic tool argument size overflow")
  reject (machine.limits.maxToolArgumentsBytes < nextOne ∨
      machine.limits.maxAllToolArgumentsBytes < nextAll)
    (protocol "Anthropic tool arguments exceed resource limit")
  .ok ({ machine with
      blocks := machine.blocks.insert wireIndex
        (.toolUse index id name (arguments ++ partialJson))
      allToolArgumentBytes := nextAll },
    [.toolCallDelta index wireIndex none (some partialJson)])

def appendSignature (machine : MessagesStateMachine Schema) (wireIndex : UInt32)
    (index : ContentIndex) (signature delta : String) :
    Except LlmError (Outcome Schema) := do
  let next ← okOr (checkedAdd (Text.len signature) (Text.len delta))
    (protocol "Anthropic thinking signature size overflow")
  reject (maxOpaqueThinkingBytes < next)
    (protocol "Anthropic thinking signature exceeds resource limit")
  let opaqueTotal ← okOr (checkedAdd machine.opaqueThinkingBytes (Text.len delta))
    (protocol "Anthropic opaque thinking size overflow")
  reject (maxOpaqueThinkingBytes < opaqueTotal)
    (protocol "Anthropic opaque thinking exceeds resource limit")
  .ok ({ machine with
      blocks := machine.blocks.insert wireIndex (.thinking index (signature ++ delta))
      opaqueThinkingBytes := opaqueTotal },
    [])

/-- The delta applied to the open block. A text or thinking block keeps its
state; only counters move. -/
def applyDelta (machine : MessagesStateMachine Schema) (wireIndex : UInt32) :
    BlockState → ContentBlockDeltaWire → Except LlmError (Outcome Schema)
  | .text index, .textDelta text => machine.pushText index text
  | .toolUse index id name arguments, .inputJsonDelta partialJson =>
    machine.appendInput wireIndex index id name arguments partialJson
  | .thinking index _, .thinkingDelta thinking => machine.pushThinking index thinking
  | .thinking index signature, .signatureDelta delta =>
    machine.appendSignature wireIndex index signature delta
  | .unsupported, _ => .ok (machine, [])
  | _, .unknown => .error (protocol "unknown Anthropic delta cannot modify a known content block")
  | _, _ => .error (protocol "Anthropic content delta type does not match its open block")

def blockDelta (machine : MessagesStateMachine Schema) (wire : ContentBlockDeltaEventWire) :
    Except LlmError (Outcome Schema) := do
  validateKind wire.kind "content_block_delta"
  machine.requireStreaming "content_block_delta"
  let block ← okOr machine.blocks[wire.index]?
    (protocol "Anthropic content delta requires a matching block start")
  machine.applyDelta wire.index block wire.delta

/-! ## Closing a block -/

def closeToolUse (library : WireLibrary Schema) (index : ContentIndex) (id : ToolCallId)
    (name : ToolName) (arguments : String) : Except LlmError (List AssistantEvent) := do
  let complete ←
    mapError (fun _ => protocol "Anthropic tool input is not complete valid JSON")
      (ToolArguments.fromRawJson library.toJsonLibrary
        (if arguments = "" then "\x7b\x7d" else arguments))
  reject (complete.value.isObject = false)
    (protocol "Anthropic tool input must be a JSON object")
  .ok [.toolCallEnd index ⟨id, name, complete⟩]

def closeBlock (library : WireLibrary Schema) (machine : MessagesStateMachine Schema) :
    BlockState → Except LlmError (List AssistantEvent)
  | .text index => .ok [.textEnd index]
  | .thinking index signature => do
    if signature = "" then .ok [.thinkingEnd index]
    else do
      let source ← machine.sourceIdentity
      .ok [.thinkingOpaque index ⟨Text.bytes signature, source, false⟩, .thinkingEnd index]
  | .toolUse index id name arguments => closeToolUse library index id name arguments
  | .redacted index data => do
    let source ← machine.sourceIdentity
    .ok [.thinkingOpaque index ⟨Text.bytes data, source, true⟩, .thinkingEnd index]
  | .unsupported => .ok []

def blockStop (library : WireLibrary Schema) (machine : MessagesStateMachine Schema)
    (wire : IndexedEventWire) : Except LlmError (Outcome Schema) := do
  validateKind wire.kind "content_block_stop"
  machine.requireStreaming "content_block_stop"
  let block ← okOr machine.blocks[wire.index]?
    (protocol "Anthropic content block stop requires a matching start")
  let events ← closeBlock library machine block
  .ok ({ machine with blocks := machine.blocks.erase wire.index }, events)

/-! ## The end of the message -/

def applyStopReason (machine : MessagesStateMachine Schema) (raw : String)
    (usage : UsageWire) : Except LlmError (Outcome Schema) := do
  let reason ← stopReason raw
  reject (reason = .toolCalls ∧ machine.toolCalls = 0)
    (protocol "Anthropic tool_use stop reason requires a completed tool block")
  let details ← usageDetails usage
  .ok ({ machine with
      finishReason := some reason
      phase := .awaitMessageStop
      usageEmitted := details.hasAnyKnown },
    if details.hasAnyKnown then [.detailedUsage details] else [])

def messageDelta (machine : MessagesStateMachine Schema) (wire : MessageDeltaEventWire) :
    Except LlmError (Outcome Schema) := do
  validateKind wire.kind "message_delta"
  machine.requireStreaming "message_delta"
  reject (machine.blocks.isEmpty = false)
    (protocol "Anthropic message_delta received before all content blocks stopped")
  let usage ← mergeUsageSnapshot (machine.usageSnapshot.getD .unreported) wire.usage
    machine.usageCompat
  let machine := { machine with usageSnapshot := some usage }
  match wire.delta.stopReason with
  | none => .ok (machine, [])
  | some raw => machine.applyStopReason raw usage

def messageStop (library : WireLibrary Schema) (machine : MessagesStateMachine Schema)
    (wire : TypeOnlyEventWire) : Except LlmError (Outcome Schema) := do
  validateKind wire.kind "message_stop"
  reject (machine.phase ≠ .awaitMessageStop)
    (protocol "Anthropic message_stop requires a completed message_delta")
  let reason ← okOr machine.finishReason
    (protocol "Anthropic message_stop is missing a finish reason")
  let terminal ← machine.terminal.validateBeforeDone library.toJsonLibrary reason
    (decide (0 < machine.toolCalls)) false
  .ok ({ machine with terminal, phase := .terminal }, [])

def providerError (machine : MessagesStateMachine Schema) (wire : ErrorEventWire) :
    Except LlmError (Outcome Schema) := do
  validateKind wire.kind "error"
  let kind ← boundedErrorKind wire.error.kind
  let hint := if kind = "overloaded_error" then RetriableHint.maybe else .no
  .error (.protocol ((ProtocolError.atStage .protocol
    "Anthropic stream returned a provider error").withProviderContext kind
      machine.context.providerRequestId hint))

def handle (library : WireLibrary Schema) (machine : MessagesStateMachine Schema) :
    WireEvent → Except LlmError (Outcome Schema)
  | .messageStart wire => machine.messageStart wire
  | .contentBlockStart wire => blockStart library machine wire
  | .contentBlockDelta wire => machine.blockDelta wire
  | .contentBlockStop wire => blockStop library machine wire
  | .messageDelta wire => machine.messageDelta wire
  | .messageStop wire => messageStop library machine wire
  | .ping wire => do
    validateKind wire.kind "ping"
    .ok (machine, [])
  | .error wire => machine.providerError wire
  | .other => .ok (machine, [])

def accept (library : WireLibrary Schema) (machine : MessagesStateMachine Schema)
    (event : SseEvent) : Except LlmError (Outcome Schema) := do
  let eventsSeen ← okOr (checkedAdd machine.eventsSeen 1)
    (protocol "Anthropic stream event count overflow")
  reject (maxStreamEvents < eventsSeen) (protocol "Anthropic stream event limit exceeded")
  reject (machine.phase = .terminal) (protocol "Anthropic event received after message_stop")
  let wire ← decodeEvent library event
  handle library { machine with eventsSeen } wire

def finish (machine : MessagesStateMachine Schema) :
    Except LlmError (List AssistantEvent) :=
  if machine.phase = .terminal ∧ machine.terminal.validated = true then do
    let reason ← okOr machine.finishReason
      (protocol "Anthropic terminal is missing a finish reason")
    .ok [.done reason]
  else .error .truncatedStream

def producer (library : WireLibrary Schema) :
    Producer (MessagesStateMachine Schema) SseEvent AssistantEvent LlmError where
  accept := accept library
  finish := finish

end MessagesStateMachine

end Philo.AnthropicMessages
