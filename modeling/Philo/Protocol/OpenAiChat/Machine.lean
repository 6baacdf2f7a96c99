import Philo.Protocol.OpenAiChat.ToolCalls

/-! The OpenAI Chat response state machine. As with the other protocol, a failing
call leaves no state behind. -/

namespace Philo.OpenAiChat

open Result Std

inductive ContentBlockState where
  | notStarted
  | opened (index : ContentIndex)
  | closed
  deriving DecidableEq

structure StreamContext where
  localRequestId : LocalRequestId
  providerRequestId : Option ProviderRequestId

structure ChatStateMachine (Schema : Type) where
  context : StreamContext
  limits : ResponseLimits
  started : Bool
  text : ContentBlockState
  refusal : ContentBlockState
  tools : ToolCallAccumulator
  nextContentIndex : UInt32
  finishReason : Option FinishReason
  duplicateFinishSeen : Bool
  seenDone : Bool
  terminal : StructuredTerminal Schema
  usageDetails : Option UsageDetails
  generationId : Option GenerationId
  responseModel : Option String
  unknownFields : TreeSet String
  responseCompat : ResponseCompat

namespace ChatStateMachine

variable {Schema : Type}

def new (context : StreamContext) (responseFormat : ResponseFormat Schema)
    (limits : ResponseLimits) (responseCompat : ResponseCompat) : ChatStateMachine Schema where
  context
  limits
  started := false
  text := .notStarted
  refusal := .notStarted
  tools := .new limits
  nextContentIndex := 0
  finishReason := none
  duplicateFinishSeen := false
  seenDone := false
  terminal := .new responseFormat
    ⟨2 ^ 64 - 1, limits.maxSchemaDepth, limits.maxJsonArrayItems⟩
    limits.maxStructuredOutputBytes
  usageDetails := none
  generationId := none
  responseModel := none
  unknownFields := ∅
  responseCompat

abbrev Outcome (Schema : Type) := ChatStateMachine Schema × List AssistantEvent

def hasOpenBlocks (machine : ChatStateMachine Schema) : Bool :=
  (match machine.text with | .opened _ => true | .notStarted | .closed => false) ||
    (match machine.refusal with | .opened _ => true | .notStarted | .closed => false) ||
    machine.tools.hasOpenCalls

/-- `[DONE]`: nothing is emitted, but the structured output is validated here. -/
def acceptDoneMarker (library : WireLibrary Schema) (machine : ChatStateMachine Schema) :
    Except LlmError (Outcome Schema) := do
  let finishReason ← okOr machine.finishReason
    (protocol "[DONE] received without a supported finish reason")
  reject (machine.hasOpenBlocks = true)
    (protocol "[DONE] received before all content blocks ended")
  let terminal ← machine.terminal.validateBeforeDone library.toJsonLibrary finishReason
    (!machine.tools.isEmpty) (decide (machine.refusal ≠ .notStarted))
  .ok ({ machine with terminal, seenDone := true }, [])

/-! ## Recording what a chunk says about itself -/

def recordToolCallFields (fields : TreeSet String) (toolCall : ToolCallDeltaWire) :
    TreeSet String :=
  let fields := recordFieldNames fields "tool_call" toolCall.extra
  toolCall.function.elim fields fun function => recordFieldNames fields "function" function.extra

def recordChoiceFields (fields : TreeSet String) (choice : ChoiceWire) : TreeSet String :=
  let fields := recordFieldNames fields "choice" choice.extra
  choice.delta.elim fields fun delta =>
    let fields := recordFieldNames fields "delta" delta.extra
    delta.toolCalls.elim fields (List.foldl recordToolCallFields fields)

def recordUsageFields (fields : TreeSet String) (usage : UsageWire) : TreeSet String :=
  let fields := recordFieldNames fields "usage" usage.extra
  let fields := usage.promptTokensDetails.elim fields fun details =>
    recordFieldNames fields "usage.prompt_tokens_details" details.extra
  usage.completionTokensDetails.elim fields fun details =>
    recordFieldNames fields "usage.completion_tokens_details" details.extra

def recordUnknownFields (machine : ChatStateMachine Schema)
    (chunk : ChatCompletionChunkWire) : ChatStateMachine Schema :=
  let fields := recordFieldNames machine.unknownFields "chunk" chunk.extra
  let fields := chunk.choices.foldl recordChoiceFields fields
  { machine with unknownFields := chunk.usage.elim fields (recordUsageFields fields) }

def observeGenerationId (machine : ChatStateMachine Schema) :
    Option String → Except LlmError (ChatStateMachine Schema)
  | none => .ok machine
  | some raw => do
    let parsed ← mapError (fun _ => protocol "invalid generation id in response chunk")
      (ValidatedId.new .generation raw)
    reject (∃ previous ∈ machine.generationId, previous ≠ parsed)
      (protocol "generation id changed within stream")
    .ok { machine with generationId := machine.generationId.or (some parsed) }

def observeModel (machine : ChatStateMachine Schema) :
    Option String → Except LlmError (ChatStateMachine Schema)
  | none => .ok machine
  | some model => do
    reject (model = "" ∨ Text.trim model ≠ model)
      (protocol "invalid model identifier in response chunk")
    reject (∃ previous ∈ machine.responseModel, previous ≠ model)
      (protocol "response model changed within stream")
    .ok { machine with responseModel := machine.responseModel.or (some model) }

def observeIdentity (machine : ChatStateMachine Schema)
    (generationId responseModel : Option String) :
    Except LlmError (ChatStateMachine Schema) := do
  let machine ← machine.observeGenerationId generationId
  machine.observeModel responseModel

def emitStart (machine : ChatStateMachine Schema) : Outcome Schema :=
  if machine.started = true then (machine, [])
  else ({ machine with started := true },
    [.start machine.context.localRequestId machine.context.providerRequestId
      machine.generationId])

def allocateContentIndex (machine : ChatStateMachine Schema) :
    Except LlmError (ChatStateMachine Schema × ContentIndex) := do
  let nextContentIndex ← okOr (checkedAddU32 machine.nextContentIndex 1)
    (protocol "content index overflow")
  .ok ({ machine with nextContentIndex }, machine.nextContentIndex)

/-! ## Deltas -/

def startText (machine : ChatStateMachine Schema) : Except LlmError (Outcome Schema) :=
  if machine.text = .notStarted then do
    let (machine, index) ← machine.allocateContentIndex
    .ok ({ machine with text := .opened index }, [.textStart index])
  else .ok (machine, [])

def pushText (machine : ChatStateMachine Schema) (content : String) :
    Except LlmError (Outcome Schema) := do
  reject (machine.refusal ≠ .notStarted) (.unsupportedResponseSemantics "text with refusal")
  reject (machine.text = .closed) (protocol "text delta received after finish reason")
  let (machine, started) ← machine.startText
  match machine.text with
  | .opened index => do
    let terminal ← machine.terminal.pushAnswerText content
    .ok ({ machine with terminal }, started ++ [.textDelta index content])
  | .notStarted | .closed => .error (protocol "text block is not open")

def startRefusal (machine : ChatStateMachine Schema) : Except LlmError (Outcome Schema) :=
  if machine.refusal = .notStarted then do
    let (machine, index) ← machine.allocateContentIndex
    .ok ({ machine with refusal := .opened index }, [.refusalStart index])
  else .ok (machine, [])

def pushRefusal (machine : ChatStateMachine Schema) (content : String) :
    Except LlmError (Outcome Schema) := do
  reject (machine.text ≠ .notStarted) (.unsupportedResponseSemantics "refusal with text")
  reject (machine.tools.isEmpty = false)
    (.unsupportedResponseSemantics "refusal with tool_calls")
  reject (machine.refusal = .closed) (protocol "refusal delta received after finish reason")
  let (machine, started) ← machine.startRefusal
  match machine.refusal with
  | .opened index => .ok (machine, started ++ [.refusalDelta index content])
  | .notStarted | .closed => .error (protocol "refusal block is not open")

def prepareTool (machine : ChatStateMachine Schema) (wireIndex : WireToolIndex) :
    Except LlmError (ChatStateMachine Schema × Option ContentIndex) := do
  let isNew ← machine.tools.prepare wireIndex
  if isNew then do
    let (machine, index) ← machine.allocateContentIndex
    .ok (machine, some index)
  else .ok (machine, none)

def pushToolDelta (library : WireLibrary Schema) (machine : ChatStateMachine Schema)
    (delta : ToolCallDeltaWire) : Except LlmError (Outcome Schema) := do
  reject (machine.refusal ≠ .notStarted)
    (.unsupportedResponseSemantics "tool_calls with refusal")
  reject (machine.finishReason.isSome = true)
    (protocol "tool call delta received after finish reason")
  reject (∃ kind ∈ delta.kind, kind ≠ "function")
    (.unsupportedResponseSemantics "tool_call.type")
  let wireIndex ← ToolCallAccumulator.parseWireIndex delta.index
  let (machine, contentIndex) ← machine.prepareTool wireIndex
  let (tools, events) ← machine.tools.observeDelta library wireIndex contentIndex delta
    machine.responseCompat.toolArguments
  .ok ({ machine with tools }, events)

def pushToolDeltas (library : WireLibrary Schema) (machine : ChatStateMachine Schema) :
    List ToolCallDeltaWire → Except LlmError (Outcome Schema)
  | [] => .ok (machine, [])
  | delta :: rest => do
    let (machine, first) ← pushToolDelta library machine delta
    let (machine, later) ← pushToolDeltas library machine rest
    .ok (machine, first ++ later)

def pushNonEmpty (machine : ChatStateMachine Schema)
    (push : ChatStateMachine Schema → String → Except LlmError (Outcome Schema)) :
    Option String → Except LlmError (Outcome Schema)
  | none => .ok (machine, [])
  | some content => if content = "" then .ok (machine, []) else push machine content

def applyDelta (library : WireLibrary Schema) (machine : ChatStateMachine Schema)
    (delta : DeltaWire) : Except LlmError (Outcome Schema) := do
  let (machine, text) ← machine.pushNonEmpty pushText delta.content
  let (machine, refusal) ← machine.pushNonEmpty pushRefusal delta.refusal
  let (machine, toolCalls) ← pushToolDeltas library machine (delta.toolCalls.getD [])
  .ok (machine, text ++ refusal ++ toolCalls)

/-! ## The finish reason -/

def closeTextIfOpen (machine : ChatStateMachine Schema) : Outcome Schema :=
  match machine.text with
  | .opened index => ({ machine with text := .closed }, [.textEnd index])
  | .notStarted | .closed => (machine, [])

def closeRefusal (machine : ChatStateMachine Schema) : Outcome Schema :=
  match machine.refusal with
  | .opened index => ({ machine with refusal := .closed }, [.refusalEnd index])
  | .notStarted | .closed => (machine, [])

def finishToolCalls (library : WireLibrary Schema) (machine : ChatStateMachine Schema) :
    Except LlmError (Outcome Schema) := do
  let (machine, closed) := machine.closeTextIfOpen
  reject (machine.refusal ≠ .notStarted)
    (.unsupportedResponseSemantics "tool_calls with refusal")
  reject (machine.tools.isEmpty = true)
    (protocol "finish reason tool_calls without tool call deltas")
  let (tools, ended) ← machine.tools.finishAll library
  .ok ({ machine with tools }, closed ++ ended)

def emptyText (machine : ChatStateMachine Schema) : Except LlmError (Outcome Schema) := do
  let (machine, index) ← machine.allocateContentIndex
  let closed := { machine with text := .opened index }.closeTextIfOpen
  .ok (closed.1, .textStart index :: closed.2)

def finishText (machine : ChatStateMachine Schema) : Except LlmError (Outcome Schema) := do
  reject (machine.tools.isEmpty = false)
    (protocol "non-tool finish reason received with tool call deltas")
  match machine.refusal, machine.text with
  | .opened _, _ => .ok machine.closeRefusal
  | .notStarted, .opened _ | .closed, .opened _ => .ok machine.closeTextIfOpen
  | .notStarted, .notStarted => machine.emptyText
  | .notStarted, .closed | .closed, .notStarted | .closed, .closed => .ok (machine, [])

def closeBlocks (library : WireLibrary Schema) (machine : ChatStateMachine Schema) :
    FinishReason → Except LlmError (Outcome Schema)
  | .toolCalls => finishToolCalls library machine
  | .stop | .length => machine.finishText
  | .contentFilter => do
    reject (machine.tools.isEmpty = false)
      (protocol "content_filter finish reason received with tool call deltas")
    .error (protocol "content_filter finish reason is not a successful completion")
  | .unknown raw => .error (.unknownFinishReason (boundedLabel raw 64))

def applyFinish (library : WireLibrary Schema) (machine : ChatStateMachine Schema)
    (reason : FinishReason) : Except LlmError (Outcome Schema) := do
  reject (machine.finishReason.isSome = true) (protocol "duplicate finish reason")
  let (machine, events) ← closeBlocks library machine reason
  .ok ({ machine with finishReason := some reason }, events)

def applyChoice (library : WireLibrary Schema) (machine : ChatStateMachine Schema)
    (choice : ChoiceWire) (finishReason : Option FinishReason) :
    Except LlmError (Outcome Schema) := do
  let (machine, delta) ← choice.delta.elim (.ok (machine, [])) (applyDelta library machine)
  let (machine, finish) ← finishReason.elim (.ok (machine, [])) (applyFinish library machine)
  .ok (machine, delta ++ finish)

/-! ## One event -/

def usageEvents : UsageMergeOutcome → Except LlmError (List AssistantEvent)
  | .unchanged => .ok []
  | .emitP1 details => do
    let usage ← mapError protocol (coreUsageFromDetails details)
    .ok [.usage usage, .detailedUsage details]
  | .emitDetailed details => .ok [.detailedUsage details]

def applyUsage (machine : ChatStateMachine Schema) :
    Option UsageDetails → Except LlmError (Outcome Schema)
  | none => .ok (machine, [])
  | some details => do
    let (merged, outcome) ← mapError (fun error => protocol error.message)
      (mergeUsageDetails machine.usageDetails details)
    let events ← usageEvents outcome
    .ok ({ machine with usageDetails := some merged }, events)

def applyPrepared (library : WireLibrary Schema) (machine : ChatStateMachine Schema)
    (chunk : ChatCompletionChunkWire) (prepared : PreparedChunk) :
    Except LlmError (Outcome Schema) := do
  let machine := machine.recordUnknownFields chunk
  let machine ← machine.observeIdentity chunk.id chunk.model
  let (machine, start) := machine.emitStart
  let (machine, choice) ← chunk.choices.head?.elim (.ok (machine, [])) fun choice =>
    applyChoice library machine choice prepared.finishReason
  let machine := { machine with
    duplicateFinishSeen := machine.duplicateFinishSeen || prepared.duplicateFinish }
  let (machine, usage) ← machine.applyUsage prepared.usage
  .ok (machine, start ++ choice ++ usage)

def oversizedToolCalls (machine : ChatStateMachine Schema)
    (chunk : ChatCompletionChunkWire) : Bool :=
  chunk.choices.any fun choice =>
    (choice.delta.bind DeltaWire.toolCalls).any fun toolCalls =>
      decide (machine.limits.maxToolCalls < toolCalls.length)

def acceptChunk (library : WireLibrary Schema) (machine : ChatStateMachine Schema)
    (chunk : ChatCompletionChunkWire) : Except LlmError (Outcome Schema) := do
  validateInlineError chunk.error.isSome machine.responseCompat.inlineError
  reject (∃ object ∈ chunk.object, object ≠ "chat.completion.chunk")
    (protocol "invalid chat completion chunk object")
  let prepared ← PreparedChunk.validate chunk machine.finishReason
    machine.duplicateFinishSeen machine.responseCompat.finishReason
    machine.responseCompat.usage
  reject (machine.oversizedToolCalls chunk = true)
    (protocol "tool call array exceeds resource limit")
  applyPrepared library machine chunk prepared

def accept (library : WireLibrary Schema) (machine : ChatStateMachine Schema)
    (event : SseEvent) : Except LlmError (Outcome Schema) :=
  if machine.seenDone = true then
    if event.data = "[DONE]" then .error (protocol "duplicate [DONE] marker")
    else .error (protocol "data received after [DONE] marker")
  else if event.data = "[DONE]" then acceptDoneMarker library machine
  else do
    let chunk ← mapError jsonError (library.chunk event.data)
    acceptChunk library machine chunk

def finish (machine : ChatStateMachine Schema) : Except LlmError (List AssistantEvent) := do
  reject (machine.seenDone = false) .truncatedStream
  reject (machine.terminal.validated = false)
    (protocol "stream ended before structured output validation")
  reject (machine.hasOpenBlocks = true)
    (protocol "stream ended with incomplete content blocks")
  let finishReason ← okOr machine.finishReason
    (protocol "stream ended without a supported finish reason")
  .ok [.done finishReason]

def producer (library : WireLibrary Schema) :
    Producer (ChatStateMachine Schema) SseEvent AssistantEvent LlmError where
  accept := accept library
  finish := finish

end ChatStateMachine

end Philo.OpenAiChat
