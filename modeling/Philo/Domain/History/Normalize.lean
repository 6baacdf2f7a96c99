import Philo.Domain.History.ToolCallIds
import Philo.Foundation.Pipeline

/-! History normalization. The source runs over the messages with an index and, after an
assistant turn with tool calls, over the tool results that follow it. Here the open turn
is a part of the loop's state, so that one step takes one message. -/

namespace Philo

open Result Std

/-! ## Parts -/

structure HistorySetup where
  capabilities : HistoryCapabilities
  dialect : DialectPolicy
  policy : HistoryPolicy
  maxMessages : Nat
  maxTotalTextBytes : Nat

structure Tally where
  diagnostics : DiagnosticCounter
  totalTextBytes : Nat

namespace Tally

def fresh : Tally := ⟨.fresh, 0⟩

def increment (tally : Tally) (code : DiagnosticCode) : Tally :=
  { tally with diagnostics := tally.diagnostics.increment code }

end Tally

def addTextBytes (total added maxTotalTextBytes : Nat) : Except HistoryError Nat := do
  let next ← okOr (checkedAdd total added)
    ⟨"messages", .textTooLarge, none, "history text size overflowed"⟩
  reject (maxTotalTextBytes < next)
    ⟨"messages", .textTooLarge, none, "history exceeds the allowed total text byte limit"⟩
  .ok next

def historyErrorAt (path : String) (reason : HistoryFailure) (message : String) :
    HistoryError := ⟨path, reason, some path, message⟩

def tooManyMessages : HistoryError :=
  ⟨"messages", .tooManyMessages, none, "history exceeds the allowed message count"⟩

def messagePath (index : Nat) : String := s!"messages[{index}]"

def partPath (messageIndex partIndex : Nat) : String :=
  s!"messages[{messageIndex}].content[{partIndex}]"

namespace HistorySetup

variable (setup : HistorySetup)

def addText (tally : Tally) (text : String) : Except HistoryError Tally := do
  let total ← addTextBytes tally.totalTextBytes (Text.len text) setup.maxTotalTextBytes
  .ok { tally with totalTextBytes := total }

def normalizeContentPart (part : ContentPart) (messageIndex partIndex : Nat) (tally : Tally)
    (allowRefusal : Bool) : Except HistoryError (Option ContentPart × Tally) :=
  let path := partPath messageIndex partIndex
  match part with
  | .text text => do
    let tally ← setup.addText tally text
    .ok (some (.text text), tally)
  | .image _ =>
    if setup.capabilities.visionInput = .supported then .ok (some part, tally)
    else if setup.policy.unsupportedContent = .reject then
      .error (historyErrorAt path .unsupportedContent
        "image content is not supported by the target profile")
    else .ok (none, tally.increment .droppedUnsupportedImage)
  | .thinking thinking =>
    match setup.policy.thinkingReplay with
    | .dropAll => .ok (none,
        if thinking.opaqueState.isSome then tally.increment .droppedThinkingOpaque else tally)
    | .sameSourceOnly => do
      let tally ← setup.addText tally thinking.text
      .ok (some part, tally)
  | .refusal text => do
    reject (allowRefusal = false) (historyErrorAt path .unsupportedContent
      "refusal content is only valid on assistant turns")
    let tally ← setup.addText tally text
    .ok (some part, tally)
  | .toolCall _ => .error (historyErrorAt path .invalidMessageOrder
      "tool calls are only valid on assistant turns")

def normalizeParts (messageIndex : Nat) :
    List ContentPart → Nat → Tally → Except HistoryError (List ContentPart × Tally)
  | [], _, tally => .ok ([], tally)
  | part :: rest, partIndex, tally => do
    let (kept, tally) ← setup.normalizeContentPart part messageIndex partIndex tally false
    let (parts, tally) ← normalizeParts messageIndex rest (partIndex + 1) tally
    .ok (kept.toList ++ parts, tally)

def normalizePlainMessage (message : Message) (index : Nat) (tally : Tally) :
    Except HistoryError (Option Message × Tally) := do
  reject (message.toolResult?.isSome = true) (historyErrorAt (messagePath index)
    .invalidMessageOrder "non-tool role must not carry a tool result payload")
  let (parts, tally) ← setup.normalizeParts index message.parts 0 tally
  .ok (if parts = [] then none else some (.content message.role parts), tally)

end HistorySetup

/-! ## Assistant turns -/

def collectAssistantToolCalls (index : Nat) :
    List ContentPart → Nat → TreeSet String →
      Except HistoryError (List (ToolCallId × ToolName))
  | [], _, _ => .ok []
  | .toolCall call :: rest, partIndex, seenIds => do
    reject (call.id.value ∈ seenIds)
      ⟨s!"messages[{index}].content[{partIndex}].id", .duplicateToolCall,
        some (partPath index partIndex), "assistant turn contains duplicate tool call ids"⟩
    let calls ← collectAssistantToolCalls index rest (partIndex + 1)
      (seenIds.insert call.id.value)
    .ok ((call.id, call.name) :: calls)
  | _ :: rest, partIndex, seenIds => collectAssistantToolCalls index rest (partIndex + 1) seenIds

structure AssistantDraft where
  parts : List ContentPart
  mappings : List IdMapping
  seenToolCall : Bool
  occupiedIds : TreeSet String
  tally : Tally

def AssistantDraft.fresh (tally : Tally) : AssistantDraft := ⟨[], [], false, ∅, tally⟩

namespace HistorySetup

variable (setup : HistorySetup)

def normalizeAssistantPart (index partIndex : Nat) (draft : AssistantDraft)
    (part : ContentPart) : Except HistoryError AssistantDraft :=
  match part with
  | .toolCall call => do
    let (call, mapping, occupiedIds) ← normalizeToolCall call index partIndex
      setup.dialect.toolCallId draft.occupiedIds
    .ok {
      parts := draft.parts ++ [.toolCall call]
      mappings := draft.mappings ++ mapping.toList
      seenToolCall := true
      occupiedIds
      tally := if mapping.isSome then draft.tally.increment .sanitizedToolCallId
        else draft.tally }
  | _ => do
    reject (draft.seenToolCall = true) (historyErrorAt (partPath index partIndex)
      .invalidMessageOrder "assistant content after tool calls is not allowed")
    let (kept, tally) ← setup.normalizeContentPart part index partIndex draft.tally true
    .ok { draft with parts := draft.parts ++ kept.toList, tally }

def normalizeAssistantParts (index : Nat) :
    List ContentPart → Nat → AssistantDraft → Except HistoryError AssistantDraft
  | [], _, draft => .ok draft
  | part :: rest, partIndex, draft => do
    let next ← setup.normalizeAssistantPart index partIndex draft part
    normalizeAssistantParts index rest (partIndex + 1) next

end HistorySetup

def AssistantDraft.message? (draft : AssistantDraft) : Option Message :=
  if draft.parts = [] then none else some (.content .assistant draft.parts)

/-! ## Tool results -/

def normalizedId (mappings : List IdMapping) (original : ToolCallId) : ToolCallId :=
  ((mappings.find? fun mapping => mapping.original.value == original.value).map
    IdMapping.normalized).getD original

def resolveMappedId (originalId : String) (mappings : List IdMapping)
    (toolCalls : List (ToolCallId × ToolName)) : Except HistoryError ToolCallId :=
  match mappings.find? fun mapping => mapping.original.value == originalId with
  | some mapping => .ok mapping.normalized
  | none =>
    if (mappings.any fun mapping => mapping.normalized.value == originalId) ||
        toolCalls.any fun call => call.1.value == originalId then
      mapError (fun _ => ⟨"tool_call_id", .unknownToolCall, none,
        "tool result references an invalid tool call id"⟩) (ToolCallId.new originalId)
    else .error ⟨"tool_call_id", .unknownToolCall, none,
      "tool result references an unknown tool call id"⟩

def addResultBytes (maxTotalTextBytes : Nat) :
    List ContentPart → Nat → Except HistoryError Nat
  | [], total => .ok total
  | .text text :: rest, total => do
    let next ← addTextBytes total (Text.len text) maxTotalTextBytes
    addResultBytes maxTotalTextBytes rest next
  | _ :: _, _ => .error ⟨"tool_result.content", .unsupportedContent, none,
      "tool result content is not supported by the official profile"⟩

def remapToolResult (result : ToolResultMessage) (mappedId : ToolCallId)
    (total maxTotalTextBytes : Nat) : Except HistoryError (ToolResultMessage × Nat) := do
  let total ← addResultBytes maxTotalTextBytes result.content total
  let remapped ← ToolResultMessage.new mappedId result.toolName result.content result.isError
    result.sourceGenerationId
  .ok (remapped, total)

/-- `expected`: the names of the calls under their normalized ids. -/
def expectedResults (assistantIndex : Nat) (mappings : List IdMapping) :
    List (ToolCallId × ToolName) → TreeMap String ToolName →
      Except HistoryError (TreeMap String ToolName)
  | [], expected => .ok expected
  | (originalId, name) :: rest, expected => do
    let id := (normalizedId mappings originalId).value
    reject (id ∈ expected) (historyErrorAt (messagePath assistantIndex) .duplicateToolCall
      "assistant turn contains duplicate tool call ids")
    expectedResults assistantIndex mappings rest (expected.insert id name)

structure OpenTurn where
  assistantIndex : Nat
  toolCalls : List (ToolCallId × ToolName)
  mappings : List IdMapping
  expected : TreeMap String ToolName
  pending : TreeMap String ToolName
  results : List ToolResultMessage

/-! ## The loop -/

structure NormalizeState where
  index : Nat
  output : List Message
  tally : Tally
  idMappings : List IdMapping
  turn : Option OpenTurn

namespace NormalizeState

def fresh : NormalizeState := ⟨0, [], .fresh, [], none⟩

def closeTurn (state : NormalizeState) : Except HistoryError NormalizeState :=
  match state.turn with
  | none => .ok state
  | some turn => do
    reject (turn.pending.isEmpty = false) (historyErrorAt (messagePath turn.assistantIndex)
      .missingToolResult "assistant tool-call turn is missing one or more tool results")
    .ok { state with
      output := state.output ++ turn.results.map .toolResult
      turn := none }

def push (state : NormalizeState) (message : Option Message) (tally : Tally) :
    NormalizeState :=
  { state with
    index := state.index + 1
    output := state.output ++ message.toList
    tally }

end NormalizeState

namespace HistorySetup

variable (setup : HistorySetup)

def acceptToolResult (state : NormalizeState) (turn : OpenTurn) (message : Message) :
    Except HistoryError NormalizeState := do
  let result ← okOr message.toolResult? (historyErrorAt (messagePath state.index)
    .invalidMessageOrder "tool role message is missing a tool result payload")
  let mappedId ← resolveMappedId result.toolCallId.value turn.mappings turn.toolCalls
  let field := messagePath state.index ++ ".tool_call_id"
  reject (mappedId.value ∉ turn.pending ∧ (mappedId.value ∈ turn.expected ∨
      ∃ existing ∈ turn.results, existing.toolCallId.value = mappedId.value))
    ⟨field, .duplicateToolResult, some (messagePath state.index),
      "tool result id was submitted more than once"⟩
  reject (mappedId.value ∉ turn.pending)
    ⟨field, .unknownToolCall, some (messagePath state.index),
      "tool result references an unknown tool call id"⟩
  let (remapped, total) ← remapToolResult result mappedId state.tally.totalTextBytes
    setup.maxTotalTextBytes
  .ok { state with
    index := state.index + 1
    tally := { state.tally with totalTextBytes := total }
    turn := some { turn with
      pending := turn.pending.erase mappedId.value
      results := turn.results ++ [remapped] } }

def acceptPlain (state : NormalizeState) (message : Message) :
    Except HistoryError NormalizeState := do
  let (normalized, tally) ← setup.normalizePlainMessage message state.index state.tally
  .ok (state.push normalized tally)

def acceptDeveloper (state : NormalizeState) (message : Message) :
    Except HistoryError NormalizeState := do
  reject (setup.capabilities.developerRole ≠ .supported)
    ⟨messagePath state.index ++ ".role", .unsupportedContent, some (messagePath state.index),
      "developer role is not supported by the target profile"⟩
  setup.acceptPlain state message

def acceptAssistant (state : NormalizeState) (content : List ContentPart) :
    Except HistoryError NormalizeState := do
  let toolCalls ← collectAssistantToolCalls state.index content 0 ∅
  if content = [] then
    .ok (state.push none (state.tally.increment .removedEmptyAssistant))
  else do
    let draft ← setup.normalizeAssistantParts state.index content 0 (.fresh state.tally)
    let state' := { state with idMappings := state.idMappings ++ draft.mappings }
    if toolCalls = [] then
      .ok (state'.push draft.message? (if draft.message?.isSome then draft.tally
        else draft.tally.increment .removedEmptyAssistant))
    else do
      let message ← okOr draft.message? (historyErrorAt (messagePath state.index)
        .invalidMessageOrder "assistant tool-call turn became empty after normalization")
      let expected ← expectedResults state.index draft.mappings toolCalls ∅
      .ok { state'.push (some message) draft.tally with
        turn := some ⟨state.index, toolCalls, draft.mappings, expected, expected, []⟩ }

/-- The body of the loop. A message other than a tool result first ends the open turn. -/
def normalizeMessage (state : NormalizeState) (message : Message) :
    Except HistoryError NormalizeState :=
  match message.role, state.turn with
  | .tool, some turn => setup.acceptToolResult state turn message
  | .tool, none => .error (historyErrorAt (messagePath state.index) .resultBeforeCall
      "tool result appeared before an assistant tool-call turn")
  | .developer, _ => do setup.acceptDeveloper (← state.closeTurn) message
  | .system, _ | .user, _ => do setup.acceptPlain (← state.closeTurn) message
  | .assistant, _ => do setup.acceptAssistant (← state.closeTurn) message.parts

def finish (state : NormalizeState) : Except HistoryError NormalizedContext := do
  let closed ← state.closeTurn
  reject (setup.maxMessages < closed.output.length) tooManyMessages
  .ok ⟨closed.output, closed.idMappings, closed.tally.diagnostics.intoVec⟩

def normalizer : Consumer NormalizeState Message NormalizedContext HistoryError where
  accept := setup.normalizeMessage
  finish := setup.finish

end HistorySetup

def normalizeHistoryWithLimits (messages : List Message) (capabilities : HistoryCapabilities)
    (dialect : DialectPolicy) (policy : HistoryPolicy)
    (maxMessages maxTotalTextBytes : Nat) : Except HistoryError NormalizedContext := do
  reject (maxMessages < messages.length) tooManyMessages
  HistorySetup.normalizer ⟨capabilities, dialect, policy, maxMessages, maxTotalTextBytes⟩
    |>.collect .fresh messages

end Philo
