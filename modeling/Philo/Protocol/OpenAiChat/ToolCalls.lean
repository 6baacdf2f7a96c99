import Philo.Protocol.OpenAiChat.Decode

/-! The tool call accumulator of `tool_calls.rs`: one pending call per wire
index, fed by deltas and completed together at the finish reason. -/

namespace Philo.OpenAiChat

open Result Std

structure PendingToolCall where
  wireIndex : WireToolIndex
  domainContentIndex : ContentIndex
  providerCallId : Option ToolCallId
  nameBuffer : String
  argumentsBuffer : String
  startEmitted : Bool
  ended : Bool

structure ToolCallAccumulator where
  pendingByWireIndex : TreeMap WireToolIndex PendingToolCall
  seenProviderCallIds : TreeMap ToolCallId WireToolIndex
  order : List WireToolIndex
  totalArgumentBytes : Nat
  limits : ResponseLimits

mutual

def jsonDepth : Json → Nat
  | .array items => 1 + maxDepth items
  | .object entries => 1 + maxEntryDepth entries
  | _ => 1

def maxDepth : List Json → Nat
  | [] => 0
  | item :: rest => max (jsonDepth item) (maxDepth rest)

def maxEntryDepth : List (String × Json) → Nat
  | [] => 0
  | (_, value) :: rest => max (jsonDepth value) (maxEntryDepth rest)

end

def parseToolCallId (raw : String) : Except LlmError ToolCallId :=
  mapError (fun _ => protocol "invalid tool call id") (ToolCallId.new raw)

def parseOptionalId : Option String → Except LlmError (Option ToolCallId)
  | none => .ok none
  | some raw => do
    let id ← parseToolCallId raw
    .ok (some id)

namespace ToolCallAccumulator

variable {Schema : Type}

def new (limits : ResponseLimits) : ToolCallAccumulator where
  pendingByWireIndex := ∅
  seenProviderCallIds := ∅
  order := []
  totalArgumentBytes := 0
  limits

def isEmpty (tools : ToolCallAccumulator) : Bool := tools.order.isEmpty

/-- Checks capacity; `true` means that the machine must allocate a content index. -/
def prepare (tools : ToolCallAccumulator) (wireIndex : WireToolIndex) :
    Except LlmError Bool :=
  if wireIndex ∈ tools.pendingByWireIndex then .ok false
  else do
    reject (tools.limits.maxToolCalls ≤ tools.order.length)
      (protocol "tool call count exceeds resource limit")
    .ok true

def registerId (tools : ToolCallAccumulator) (wireIndex : WireToolIndex) (id : ToolCallId) :
    Except LlmError ToolCallAccumulator :=
  match tools.seenProviderCallIds[id]? with
  | some existing => do
    reject (existing ≠ wireIndex) (protocol "duplicate tool call id across wire indexes")
    .ok tools
  | none => .ok { tools with seenProviderCallIds := tools.seenProviderCallIds.insert id wireIndex }

def registerOptionalId (tools : ToolCallAccumulator) (wireIndex : WireToolIndex) :
    Option ToolCallId → Except LlmError ToolCallAccumulator
  | none => .ok tools
  | some id => tools.registerId wireIndex id

def setPending (tools : ToolCallAccumulator) (wireIndex : WireToolIndex)
    (pending : PendingToolCall) : ToolCallAccumulator :=
  { tools with pendingByWireIndex := tools.pendingByWireIndex.insert wireIndex pending }

/-- A delta for a known wire index: the id may arrive late but not change. -/
def observeKnown (tools : ToolCallAccumulator) (wireIndex : WireToolIndex)
    (pending : PendingToolCall) (parsedId : Option ToolCallId) :
    Except LlmError ToolCallAccumulator := do
  reject (pending.ended = true) (protocol "tool call delta received after tool call end")
  reject (∃ existing ∈ pending.providerCallId, ∃ parsed ∈ parsedId, existing ≠ parsed)
    (protocol "conflicting tool call id for wire index")
  let tools ← tools.registerOptionalId wireIndex parsedId
  .ok (tools.setPending wireIndex
    { pending with providerCallId := pending.providerCallId.or parsedId })

def observeNew (tools : ToolCallAccumulator) (wireIndex : WireToolIndex)
    (newContentIndex : Option ContentIndex) (parsedId : Option ToolCallId) :
    Except LlmError (ToolCallAccumulator × List AssistantEvent) := do
  let domainContentIndex ← okOr newContentIndex
    (protocol "missing content index for new tool call")
  let tools ← tools.registerOptionalId wireIndex parsedId
  let pending : PendingToolCall := {
    wireIndex
    domainContentIndex
    providerCallId := parsedId
    nameBuffer := ""
    argumentsBuffer := ""
    startEmitted := true
    ended := false }
  .ok ({ tools.setPending wireIndex pending with order := tools.order ++ [wireIndex] },
    [.toolCallStart domainContentIndex wireIndex parsedId])

def observeCall (tools : ToolCallAccumulator) (wireIndex : WireToolIndex)
    (newContentIndex : Option ContentIndex) (parsedId : Option ToolCallId) :
    Except LlmError (ToolCallAccumulator × List AssistantEvent) :=
  match tools.pendingByWireIndex[wireIndex]? with
  | some pending => do
    let tools ← tools.observeKnown wireIndex pending parsedId
    .ok (tools, [])
  | none => tools.observeNew wireIndex newContentIndex parsedId

/-! ## Fragments -/

def nonEmpty (fragment : Option String) : Option String := fragment.filter (· ≠ "")

def nameDelta (delta : ToolCallDeltaWire) : Option String :=
  nonEmpty (delta.function.bind FunctionDeltaWire.name)

def argumentsDelta (library : WireLibrary Schema) (compat : ToolArgumentsCompat)
    (delta : ToolCallDeltaWire) : Except LlmError (Option String) :=
  match delta.function.bind FunctionDeltaWire.arguments with
  | none => .ok none
  | some arguments => do
    let normalized ← normalizeToolArguments library compat arguments
    .ok (nonEmpty (some normalized))

def appendName (pending : PendingToolCall) (fragment : Option String) :
    Except LlmError PendingToolCall :=
  match fragment with
  | none => .ok pending
  | some fragment => do
    reject (ToolName.maxBytes < saturatingAdd (Text.len pending.nameBuffer) (Text.len fragment))
      (protocol "tool name exceeds resource limit")
    .ok { pending with nameBuffer := pending.nameBuffer ++ fragment }

def appendArguments (tools : ToolCallAccumulator) (pending : PendingToolCall)
    (fragment : Option String) : Except LlmError (PendingToolCall × Nat) :=
  match fragment with
  | none => .ok (pending, tools.totalArgumentBytes)
  | some fragment => do
    reject (tools.limits.maxToolArgumentsBytes <
        saturatingAdd (Text.len pending.argumentsBuffer) (Text.len fragment))
      (protocol "tool arguments exceed per-call resource limit")
    let nextTotal := saturatingAdd tools.totalArgumentBytes (Text.len fragment)
    reject (tools.limits.maxAllToolArgumentsBytes < nextTotal)
      (protocol "tool arguments exceed aggregate resource limit")
    .ok ({ pending with argumentsBuffer := pending.argumentsBuffer ++ fragment }, nextTotal)

def appendFragments (library : WireLibrary Schema) (tools : ToolCallAccumulator)
    (wireIndex : WireToolIndex) (delta : ToolCallDeltaWire) (compat : ToolArgumentsCompat) :
    Except LlmError (ToolCallAccumulator × List AssistantEvent) := do
  let pending ← okOr tools.pendingByWireIndex[wireIndex]?
    (protocol "missing tool call accumulator")
  reject (pending.ended = true) (protocol "tool call delta received after tool call end")
  let name := nameDelta delta
  let arguments ← argumentsDelta library compat delta
  let named ← appendName pending name
  let (appended, totalArgumentBytes) ← tools.appendArguments named arguments
  .ok ({ tools.setPending wireIndex appended with totalArgumentBytes },
    if name = none ∧ arguments = none then []
    else [.toolCallDelta appended.domainContentIndex wireIndex name arguments])

def observeDelta (library : WireLibrary Schema) (tools : ToolCallAccumulator)
    (wireIndex : WireToolIndex) (newContentIndex : Option ContentIndex)
    (delta : ToolCallDeltaWire) (compat : ToolArgumentsCompat) :
    Except LlmError (ToolCallAccumulator × List AssistantEvent) := do
  let parsedId ← parseOptionalId delta.id
  let (tools, started) ← tools.observeCall wireIndex newContentIndex parsedId
  let (tools, appended) ← appendFragments library tools wireIndex delta compat
  .ok (tools, started ++ appended)

/-! ## Completion -/

def completeCall (library : WireLibrary Schema) (limits : ResponseLimits)
    (pending : PendingToolCall) : Except LlmError ToolCall := do
  let id ← okOr pending.providerCallId (protocol "tool call completed without an id")
  reject (pending.nameBuffer = "") (protocol "tool call completed without a name")
  let name ← mapError (fun _ => protocol "tool call completed with an invalid name")
    (ToolName.new pending.nameBuffer)
  let arguments ←
    mapError (fun _ => protocol "tool call completed with incomplete JSON arguments")
      (ToolArguments.fromRawJson library.toJsonLibrary pending.argumentsBuffer)
  reject (limits.maxSchemaDepth < jsonDepth arguments.value)
    (protocol "tool call arguments exceed maximum JSON nesting depth")
  .ok ⟨id, name, arguments⟩

def finishCall (library : WireLibrary Schema) (tools : ToolCallAccumulator)
    (wireIndex : WireToolIndex) :
    Except LlmError (ToolCallAccumulator × AssistantEvent) := do
  let pending ← okOr tools.pendingByWireIndex[wireIndex]?
    (protocol "missing tool call accumulator")
  reject (pending.ended = true) (protocol "duplicate tool call end")
  let call ← completeCall library tools.limits pending
  .ok (tools.setPending wireIndex { pending with ended := true },
    .toolCallEnd pending.domainContentIndex call)

def finishCalls (library : WireLibrary Schema) (tools : ToolCallAccumulator) :
    List WireToolIndex → Except LlmError (ToolCallAccumulator × List AssistantEvent)
  | [] => .ok (tools, [])
  | wireIndex :: rest => do
    let (tools, event) ← finishCall library tools wireIndex
    let (tools, events) ← finishCalls library tools rest
    .ok (tools, event :: events)

def finishAll (library : WireLibrary Schema) (tools : ToolCallAccumulator) :
    Except LlmError (ToolCallAccumulator × List AssistantEvent) :=
  finishCalls library tools tools.order

def hasOpenCalls (tools : ToolCallAccumulator) : Bool :=
  (tools.pendingByWireIndex.toList.map Prod.snd).any fun pending => !pending.ended

def parseWireIndex (raw : Int64) : Except LlmError WireToolIndex := do
  reject (raw < 0) (protocol "tool call index must be non-negative")
  reject (2 ^ 32 ≤ raw.toInt) (protocol "tool call index exceeds u32 range")
  .ok (UInt32.ofNat raw.toInt.toNat)

end ToolCallAccumulator

end Philo.OpenAiChat
