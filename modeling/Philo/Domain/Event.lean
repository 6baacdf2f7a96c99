import Mathlib.Data.List.Sort
import Philo.Domain.Content
import Philo.Domain.Structured
import Philo.Domain.Usage
import Philo.Foundation.Pipeline

/-! Assistant events and the collector that turns a stream of them into one
message. -/

namespace Philo

open Result Std

inductive AssistantEvent where
  | start (localRequestId : LocalRequestId)
      (providerRequestId : Option ProviderRequestId)
      (generationId : Option GenerationId)
  | textStart (index : ContentIndex)
  | textDelta (index : ContentIndex) (delta : String)
  | textEnd (index : ContentIndex)
  | thinkingStart (index : ContentIndex)
  | thinkingDelta (index : ContentIndex) (delta : String)
  | thinkingOpaque (index : ContentIndex) (opaqueState : OpaqueReasoning)
  | thinkingEnd (index : ContentIndex)
  | refusalStart (index : ContentIndex)
  | refusalDelta (index : ContentIndex) (delta : String)
  | refusalEnd (index : ContentIndex)
  | toolCallStart (index : ContentIndex) (wireIndex : WireToolIndex)
      (id : Option ToolCallId)
  | toolCallDelta (index : ContentIndex) (wireIndex : WireToolIndex)
      (nameDelta : Option String) (argumentsDelta : Option String)
  | toolCallEnd (index : ContentIndex) (call : ToolCall)
  | usage (usage : Usage)
  | detailedUsage (details : UsageDetails)
  | done (finishReason : FinishReason)

/-- `AssistantMessage` as the collector builds it. The structured output and the
model are attached by later layers. -/
structure AssistantMessage where
  content : List ContentPart
  text : String
  usage : Option Usage
  usageDetails : Option UsageDetails
  finishReason : FinishReason
  localRequestId : Option LocalRequestId
  providerRequestId : Option ProviderRequestId
  generationId : Option GenerationId

inductive OpenBlock where
  | text (text : String)
  | thinking (text : String) (opaqueState : Option OpaqueReasoning)
  | refusal (text : String)
  | toolCall (wireIndex : WireToolIndex) (id : Option ToolCallId) (name arguments : String)
  deriving DecidableEq

structure Collector where
  started : Bool
  done : Bool
  nextContentIndex : UInt32
  openBlocks : TreeMap ContentIndex OpenBlock
  content : TreeMap ContentIndex ContentPart
  toolWireIndexes : TreeSet WireToolIndex
  toolCallIds : TreeSet ToolCallId
  usage : Option Usage
  usageDetails : Option UsageDetails
  finishReason : Option FinishReason
  localRequestId : Option LocalRequestId
  providerRequestId : Option ProviderRequestId
  generationId : Option GenerationId

namespace Collector

def fresh : Collector where
  started := false
  done := false
  nextContentIndex := 0
  openBlocks := ∅
  content := ∅
  toolWireIndexes := ∅
  toolCallIds := ∅
  usage := none
  usageDetails := none
  finishReason := none
  localRequestId := none
  providerRequestId := none
  generationId := none

def protocol (message : String) : LlmError := .protocol (.new message)

def startBlock (collector : Collector) (index : ContentIndex) (block : OpenBlock) :
    Except LlmError Collector := do
  reject (index ≠ collector.nextContentIndex ∨ index ∈ collector.openBlocks ∨
      index ∈ collector.content)
    (protocol "content blocks must start once in contiguous ContentIndex order")
  let nextContentIndex ← okOr (checkedAddU32 collector.nextContentIndex 1)
    (protocol "content index overflow")
  .ok { collector with
    nextContentIndex, openBlocks := collector.openBlocks.insert index block }

def endBlock (collector : Collector) (index : ContentIndex) (part : ContentPart) :
    Except LlmError Collector := do
  reject (index ∈ collector.content) (protocol "duplicate content block end")
  .ok { collector with
    openBlocks := collector.openBlocks.erase index
    content := collector.content.insert index part }

def setOpen (collector : Collector) (index : ContentIndex) (block : OpenBlock) : Collector :=
  { collector with openBlocks := collector.openBlocks.insert index block }

def acceptStart (collector : Collector) (localRequestId : LocalRequestId)
    (providerRequestId : Option ProviderRequestId) (generationId : Option GenerationId) :
    Except LlmError Collector := do
  reject (collector.started = true ∨ collector.nextContentIndex ≠ 0)
    (protocol "duplicate or late Start")
  .ok { collector with
    started := true
    localRequestId := some localRequestId
    providerRequestId
    generationId }

def acceptToolCallStart (collector : Collector) (index : ContentIndex)
    (wireIndex : WireToolIndex) (id : Option ToolCallId) : Except LlmError Collector := do
  reject (wireIndex ∈ collector.toolWireIndexes) (protocol "duplicate tool wire index")
  reject (∃ known ∈ id, known ∈ collector.toolCallIds) (protocol "duplicate tool call id")
  startBlock
    { collector with
      toolWireIndexes := collector.toolWireIndexes.insert wireIndex
      toolCallIds := id.elim collector.toolCallIds collector.toolCallIds.insert }
    index (.toolCall wireIndex id "" "")

def acceptToolCallDelta (collector : Collector) (index : ContentIndex)
    (wireIndex : WireToolIndex) (nameDelta argumentsDelta : Option String) :
    Except LlmError Collector :=
  match collector.openBlocks[index]? with
  | some (.toolCall expectedWireIndex id name arguments) => do
    reject (expectedWireIndex ≠ wireIndex) (protocol "ToolCallDelta wire index changed")
    .ok (collector.setOpen index (.toolCall expectedWireIndex id
      (name ++ nameDelta.getD "") (arguments ++ argumentsDelta.getD "")))
  | _ => .error (protocol "ToolCallDelta requires a matching ToolCallStart")

def acceptToolCallEnd (collector : Collector) (index : ContentIndex) (call : ToolCall) :
    Except LlmError Collector :=
  match collector.openBlocks[index]? with
  | some (.toolCall _ id name arguments) => do
    reject (∃ known ∈ id, known ≠ call.id)
      (protocol "ToolCallEnd changed the tool call id")
    reject (id = none ∧ call.id ∈ collector.toolCallIds)
      (protocol "duplicate tool call id")
    reject (name ≠ call.name.value) (protocol "ToolCallEnd changed the tool name")
    reject (arguments ≠ call.arguments.rawJson)
      (protocol "ToolCallEnd changed tool arguments")
    endBlock
      { collector with
        toolCallIds :=
          id.elim (collector.toolCallIds.insert call.id) fun _ => collector.toolCallIds }
      index (.toolCall call)
  | _ => .error (protocol "ToolCallEnd requires a matching ToolCallStart")

def parts (collector : Collector) : List ContentPart := collector.content.toList.map Prod.snd

def hasToolCall (collector : Collector) : Bool := collector.parts.any ContentPart.isToolCall

def acceptDone (collector : Collector) (finishReason : FinishReason) :
    Except LlmError Collector := do
  reject (collector.openBlocks.isEmpty = false)
    (protocol "Done received with an incomplete content block")
  reject (collector.content.isEmpty = true)
    (protocol "Done requires at least one completed content block")
  reject (decide (finishReason = .toolCalls) ≠ collector.hasToolCall)
    (protocol "ToolCalls finish reason and collected tool calls disagree")
  .ok { collector with done := true, finishReason := some finishReason }

def apply (collector : Collector) (event : AssistantEvent) : Except LlmError Collector :=
  match event with
  | .start localRequestId providerRequestId generationId =>
    collector.acceptStart localRequestId providerRequestId generationId
  | .textStart index => collector.startBlock index (.text "")
  | .textDelta index delta =>
    match collector.openBlocks[index]? with
    | some (.text text) => .ok (collector.setOpen index (.text (text ++ delta)))
    | _ => .error (protocol "TextDelta requires a matching TextStart")
  | .textEnd index =>
    match collector.openBlocks[index]? with
    | some (.text text) => collector.endBlock index (.text text)
    | _ => .error (protocol "TextEnd requires a matching TextStart")
  | .thinkingStart index => collector.startBlock index (.thinking "" none)
  | .thinkingDelta index delta =>
    match collector.openBlocks[index]? with
    | some (.thinking text current) =>
      .ok (collector.setOpen index (.thinking (text ++ delta) current))
    | _ => .error (protocol "ThinkingDelta requires a matching ThinkingStart")
  | .thinkingOpaque index opaqueState =>
    match collector.openBlocks[index]? with
    | some (.thinking text current) => do
      reject (current.isSome = true)
        (protocol "thinking block received duplicate opaque state")
      .ok (collector.setOpen index (.thinking text (some opaqueState)))
    | _ => .error (protocol "ThinkingOpaque requires a matching ThinkingStart")
  | .thinkingEnd index =>
    match collector.openBlocks[index]? with
    | some (.thinking text current) => collector.endBlock index (.thinking ⟨text, current⟩)
    | _ => .error (protocol "ThinkingEnd requires a matching ThinkingStart")
  | .refusalStart index => collector.startBlock index (.refusal "")
  | .refusalDelta index delta =>
    match collector.openBlocks[index]? with
    | some (.refusal text) => .ok (collector.setOpen index (.refusal (text ++ delta)))
    | _ => .error (protocol "RefusalDelta requires a matching RefusalStart")
  | .refusalEnd index =>
    match collector.openBlocks[index]? with
    | some (.refusal text) => collector.endBlock index (.refusal text)
    | _ => .error (protocol "RefusalEnd requires a matching RefusalStart")
  | .toolCallStart index wireIndex id => collector.acceptToolCallStart index wireIndex id
  | .toolCallDelta index wireIndex nameDelta argumentsDelta =>
    collector.acceptToolCallDelta index wireIndex nameDelta argumentsDelta
  | .toolCallEnd index call => collector.acceptToolCallEnd index call
  | .usage usage =>
    match collector.usage with
    | some previous => do
      reject (previous ≠ usage) (protocol "conflicting Usage events")
      .ok collector
    | none => .ok { collector with usage := some usage }
  | .detailedUsage details =>
    match collector.usageDetails with
    | some previous => do
      reject (previous ≠ details) (protocol "conflicting DetailedUsage events")
      .ok collector
    | none => .ok { collector with usageDetails := some details }
  | .done finishReason => collector.acceptDone finishReason

def accept (collector : Collector) (event : AssistantEvent) : Except LlmError Collector := do
  reject (collector.done = true) (protocol "event received after Done")
  collector.apply event

def finish (collector : Collector) : Except LlmError AssistantMessage := do
  reject (collector.done = false) .truncatedStream
  let finishReason ← okOr collector.finishReason .truncatedStream
  .ok {
    content := collector.parts
    text := String.join (collector.parts.filterMap ContentPart.textValue)
    usage := collector.usage
    usageDetails := collector.usageDetails
    finishReason
    localRequestId := collector.localRequestId
    providerRequestId := collector.providerRequestId
    generationId := collector.generationId }

def consumer : Consumer Collector AssistantEvent AssistantMessage LlmError where
  accept := accept
  finish := finish

end Collector

end Philo
