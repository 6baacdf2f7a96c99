import Philo.Foundation.Table
import Philo.Protocol.AnthropicMessages.Machine

/-! Everything that one event can do to the machine. The invariants of the machine are
proved over these cases, and never unfold its handlers. -/

namespace Philo.AnthropicMessages

open Result Std

open MessagesStateMachine (initialInput)

variable {Schema : Type}

def textDeltas (index : ContentIndex) (text : String) : List AssistantEvent :=
  if text = "" then [] else [.textDelta index text]

def thinkingDeltas (index : ContentIndex) (thinking : String) : List AssistantEvent :=
  if thinking = "" then [] else [.thinkingDelta index thinking]

def inputDeltas (library : WireLibrary Schema) (index : ContentIndex)
    (wireIndex : WireToolIndex) (input : Json) : List AssistantEvent :=
  if input.isEmptyObject then []
  else [.toolCallDelta index wireIndex none
    (some (initialInput library input))]

@[simp] theorem mem_textDeltas {index : ContentIndex} {text : String} {event : AssistantEvent} :
    event ∈ textDeltas index text ↔ text ≠ "" ∧ event = .textDelta index text := by
  unfold textDeltas
  split <;> simp_all

@[simp] theorem mem_thinkingDeltas {index : ContentIndex} {text : String}
    {event : AssistantEvent} :
    event ∈ thinkingDeltas index text ↔ text ≠ "" ∧ event = .thinkingDelta index text := by
  unfold thinkingDeltas
  split <;> simp_all

structure AddsText (machine : MessagesStateMachine Schema) (text : String)
    (terminal : StructuredTerminal Schema) : Prop where
  extended : machine.terminal.Extends terminal text
  validated : terminal.validated = machine.terminal.validated
  fits : text = "" ∨
    machine.answerTextBytes + Text.len text ≤ machine.limits.maxStructuredOutputBytes

def ThinkingFits (machine : MessagesStateMachine Schema) (thinking : String) : Prop :=
  thinking = "" ∨
    machine.thinkingTextBytes + Text.len thinking ≤ machine.limits.maxStructuredOutputBytes

inductive Opening (library : WireLibrary Schema) (machine : MessagesStateMachine Schema)
    (wireIndex advanced : UInt32) (eventsSeen : Nat) :
    ContentBlockStartWire → MessagesStateMachine Schema → BlockState →
      List AssistantEvent → Prop
  | text (adds : AddsText machine text terminal) :
      Opening library machine wireIndex advanced eventsSeen (.text text)
        { machine with
          nextContentIndex := advanced
          eventsSeen
          answerTextBytes := machine.answerTextBytes + Text.len text
          terminal }
        (.text machine.nextContentIndex)
        (.textStart machine.nextContentIndex :: textDeltas machine.nextContentIndex text)
  | thinking (fits : ThinkingFits machine thinking) :
      Opening library machine wireIndex advanced eventsSeen (.thinking thinking)
        { machine with
          nextContentIndex := advanced
          eventsSeen
          thinkingTextBytes := machine.thinkingTextBytes + Text.len thinking }
        (.thinking machine.nextContentIndex "")
        (.thinkingStart machine.nextContentIndex ::
          thinkingDeltas machine.nextContentIndex thinking)
  | redacted (fits : machine.opaqueThinkingBytes + Text.len data ≤ maxOpaqueThinkingBytes) :
      Opening library machine wireIndex advanced eventsSeen (.redactedThinking data)
        { machine with
          nextContentIndex := advanced
          eventsSeen
          opaqueThinkingBytes := machine.opaqueThinkingBytes + Text.len data }
        (.redacted machine.nextContentIndex data)
        [.thinkingStart machine.nextContentIndex]
  | toolUse (room : machine.toolCalls < machine.limits.maxToolCalls)
      (validId : ToolCallId.new rawId = .ok toolId)
      (validName : ToolName.new name = .ok toolName)
      (fits : Text.len (initialInput library input) ≤
        machine.limits.maxToolArgumentsBytes)
      (fitsAll : machine.allToolArgumentBytes +
        Text.len (initialInput library input) ≤
          machine.limits.maxAllToolArgumentsBytes) :
      Opening library machine wireIndex advanced eventsSeen (.toolUse rawId name input)
        { machine with
          nextContentIndex := advanced
          eventsSeen
          toolCalls := machine.toolCalls + 1
          allToolArgumentBytes := machine.allToolArgumentBytes +
            Text.len (initialInput library input) }
        (.toolUse machine.nextContentIndex toolId toolName
          (initialInput library input))
        ([.toolCallStart machine.nextContentIndex wireIndex (some toolId),
          .toolCallDelta machine.nextContentIndex wireIndex (some toolName.value) none] ++
            inputDeltas library machine.nextContentIndex wireIndex input)

inductive Closing (library : WireLibrary Schema) (machine : MessagesStateMachine Schema) :
    BlockState → List AssistantEvent → Prop
  | text : Closing library machine (.text index) [.textEnd index]
  | thinking : Closing library machine (.thinking index "") [.thinkingEnd index]
  | signed (filled : signature ≠ "") (isSource : machine.sourceIdentity = .ok source) :
      Closing library machine (.thinking index signature)
        [.thinkingOpaque index ⟨Text.bytes signature, source, false⟩, .thinkingEnd index]
  | redacted (isSource : machine.sourceIdentity = .ok source) :
      Closing library machine (.redacted index data)
        [.thinkingOpaque index ⟨Text.bytes data, source, true⟩, .thinkingEnd index]
  | toolUse
      (parsed : library.fromStr (if arguments = "" then "\x7b\x7d" else arguments) = .ok value)
      (isObject : value.isObject = true) :
      Closing library machine (.toolUse index callId name arguments)
        [.toolCallEnd index
          ⟨callId, name, if arguments = "" then "\x7b\x7d" else arguments, value⟩]
  | unsupported : Closing library machine .unsupported []

inductive Step (library : WireLibrary Schema) (machine : MessagesStateMachine Schema) :
    WireEvent → MessagesStateMachine Schema → List AssistantEvent → Prop
  | started (waiting : machine.phase = .awaitMessageStart)
      (isId : ValidatedId.new .generation wire.message.id = .ok generationId) :
      Step library machine (.messageStart wire)
        { machine with
          generationId := some generationId
          usageSnapshot := some wire.message.usage
          phase := .streamingMessage
          eventsSeen }
        [.start machine.context.localRequestId machine.context.providerRequestId
          (some generationId)]
  | opened (streaming : machine.phase = .streamingMessage)
      (vacant : lookup machine.blocks wireIndex = none)
      (added : checkedAddU32 machine.nextContentIndex 1 = some advanced)
      (opens : Opening library machine wireIndex advanced eventsSeen start next state events) :
      Step library machine (.contentBlockStart ⟨kind, wireIndex, start⟩)
        { next with blocks := next.blocks.insert wireIndex state, blocksStarted } events
  | unknown (streaming : machine.phase = .streamingMessage)
      (vacant : lookup machine.blocks wireIndex = none) :
      Step library machine (.contentBlockStart ⟨kind, wireIndex, .unknown⟩)
        { machine with
          blocks := machine.blocks.insert wireIndex .unsupported
          blocksStarted
          eventsSeen }
        []
  | text (streaming : machine.phase = .streamingMessage)
      (found : lookup machine.blocks wireIndex = some (.text index))
      (adds : AddsText machine text terminal) :
      Step library machine (.contentBlockDelta ⟨kind, wireIndex, .textDelta text⟩)
        { machine with
          answerTextBytes := machine.answerTextBytes + Text.len text
          terminal
          eventsSeen }
        (textDeltas index text)
  | thinking (streaming : machine.phase = .streamingMessage)
      (found : lookup machine.blocks wireIndex = some (.thinking index signature))
      (fits : ThinkingFits machine thinking) :
      Step library machine (.contentBlockDelta ⟨kind, wireIndex, .thinkingDelta thinking⟩)
        { machine with
          thinkingTextBytes := machine.thinkingTextBytes + Text.len thinking
          eventsSeen }
        (thinkingDeltas index thinking)
  | signature (streaming : machine.phase = .streamingMessage)
      (found : lookup machine.blocks wireIndex = some (.thinking index signature))
      (fits : machine.opaqueThinkingBytes + Text.len delta ≤ maxOpaqueThinkingBytes) :
      Step library machine (.contentBlockDelta ⟨kind, wireIndex, .signatureDelta delta⟩)
        { machine with
          blocks := machine.blocks.insert wireIndex (.thinking index (signature ++ delta))
          opaqueThinkingBytes := machine.opaqueThinkingBytes + Text.len delta
          eventsSeen }
        []
  | input (streaming : machine.phase = .streamingMessage)
      (found : lookup machine.blocks wireIndex = some (.toolUse index callId name arguments))
      (fits : Text.len (arguments ++ partialJson) ≤ machine.limits.maxToolArgumentsBytes)
      (fitsAll : machine.allToolArgumentBytes + Text.len partialJson ≤
        machine.limits.maxAllToolArgumentsBytes) :
      Step library machine (.contentBlockDelta ⟨kind, wireIndex, .inputJsonDelta partialJson⟩)
        { machine with
          blocks := machine.blocks.insert wireIndex
            (.toolUse index callId name (arguments ++ partialJson))
          allToolArgumentBytes := machine.allToolArgumentBytes + Text.len partialJson
          eventsSeen }
        [.toolCallDelta index wireIndex none (some partialJson)]
  | ignored (streaming : machine.phase = .streamingMessage)
      (found : lookup machine.blocks wireIndex = some .unsupported) :
      Step library machine (.contentBlockDelta ⟨kind, wireIndex, delta⟩)
        { machine with eventsSeen } []
  | closed (streaming : machine.phase = .streamingMessage)
      (found : lookup machine.blocks wireIndex = some state)
      (closes : Closing library machine state events) :
      Step library machine (.contentBlockStop ⟨kind, wireIndex⟩)
        { machine with blocks := machine.blocks.erase wireIndex, eventsSeen } events
  | merged (streaming : machine.phase = .streamingMessage)
      (isMerged : mergeUsageSnapshot (machine.usageSnapshot.getD .unreported) wire.usage
        machine.usageCompat = .ok usage)
      (noReason : wire.delta.stopReason = none) :
      Step library machine (.messageDelta wire)
        { machine with usageSnapshot := some usage, eventsSeen } []
  | stopped (streaming : machine.phase = .streamingMessage)
      (empty : machine.blocks.isEmpty = true)
      (isMerged : mergeUsageSnapshot (machine.usageSnapshot.getD .unreported) wire.usage
        machine.usageCompat = .ok usage)
      (carries : wire.delta.stopReason = some raw) (isReason : stopReason raw = .ok reason)
      (hasTool : reason = .toolCalls → machine.toolCalls ≠ 0)
      (isDetails : usageDetails usage = .ok details) :
      Step library machine (.messageDelta wire)
        { machine with
          usageSnapshot := some usage
          finishReason := some reason
          phase := .awaitMessageStop
          usageEmitted := details.hasAnyKnown
          eventsSeen }
        (if details.hasAnyKnown then [.detailedUsage details] else [])
  | ended (waiting : machine.phase = .awaitMessageStop)
      (isReason : machine.finishReason = some reason)
      (valid : Succeeds (validateStructuredResponse library.toJsonLibrary
        machine.terminal.responseFormat reason (machine.terminal.textBuffer.getD "")
        (decide (0 < machine.toolCalls)) false machine.terminal.schemaLimits)) :
      Step library machine (.messageStop wire)
        { machine with
          terminal := { machine.terminal with validated := true }
          phase := .terminal
          eventsSeen }
        []
  | ping :
      Step library machine (.ping wire) { machine with eventsSeen } []
  | other : Step library machine .other { machine with eventsSeen } []

section Inversion

open MessagesStateMachine

variable {library : WireLibrary Schema} {machine next : MessagesStateMachine Schema}
  {state : BlockState} {events : List AssistantEvent} {index wireIndex : UInt32}
  {text : String} {eventsSeen : Nat}

theorem allocateContentIndex_eq_ok : machine.allocateContentIndex = .ok (next, index) ↔
      ∃ advanced, checkedAddU32 machine.nextContentIndex 1 = some advanced ∧
        { machine with nextContentIndex := advanced } = next ∧
          machine.nextContentIndex = index := by
  simp only [allocateContentIndex, bind_eq_ok, okOr_eq_ok, Except.ok.injEq, Prod.mk.injEq]

theorem addsText_empty (machine : MessagesStateMachine Schema) :
    AddsText machine "" machine.terminal :=
  ⟨.refl _, rfl, .inl rfl⟩

theorem pushText_eq_ok (pushed : machine.pushText index text = .ok (next, events)) :
    ∃ terminal, AddsText machine text terminal ∧ next = { machine with
      answerTextBytes := machine.answerTextBytes + Text.len text, terminal } ∧
      events = textDeltas index text := by
  simp only [pushText, bind_eq_ok, okOr_eq_ok, reject_eq_ok,
    exists_const, Except.ok.injEq, Prod.mk.injEq, Nat.not_lt] at pushed
  rcases pushed with ⟨total, added, fits, terminal, buffered, rfl, rfl⟩
  rw [checkedAdd_eq_some added] at fits ⊢
  rcases StructuredTerminal.extends_of_pushAnswerText buffered with ⟨extended, validated⟩
  exact ⟨terminal, ⟨extended, validated, .inr fits⟩, rfl, rfl⟩

theorem pushThinking_eq_ok (pushed : machine.pushThinking index text = .ok (next, events)) :
    ThinkingFits machine text ∧ next = { machine with
      thinkingTextBytes := machine.thinkingTextBytes + Text.len text } ∧
      events = thinkingDeltas index text := by
  simp only [pushThinking, bind_eq_ok, okOr_eq_ok, reject_eq_ok,
    exists_const, Except.ok.injEq, Prod.mk.injEq, Nat.not_lt] at pushed
  rcases pushed with ⟨total, added, fits, rfl, rfl⟩
  rw [checkedAdd_eq_some added] at fits ⊢
  exact ⟨.inr fits, rfl, rfl⟩

theorem opening_of_openBlock {start : ContentBlockStartWire} (known : start ≠ .unknown)
    (opened : openBlock library { machine with eventsSeen } wireIndex start =
      .ok (next, state, events)) :
    ∃ advanced, checkedAddU32 machine.nextContentIndex 1 = some advanced ∧
      Opening library machine wireIndex advanced eventsSeen start next state events := by
  cases start with
  | text text =>
    simp only [openBlock, openText, bind_eq_ok, Prod.exists, allocateContentIndex_eq_ok] at opened
    rcases opened with ⟨_, _, ⟨advanced, added, rfl, rfl⟩, opened⟩
    refine ⟨advanced, added, ?_⟩
    split at opened
    · next empty =>
        subst empty
        cases opened
        exact .text (addsText_empty machine)
    · simp only [bind_eq_ok, Prod.exists, Except.ok.injEq, Prod.mk.injEq] at opened
      rcases opened with ⟨_, _, pushed, rfl, rfl, rfl⟩
      rcases pushText_eq_ok pushed with ⟨terminal, ⟨extended, validated, fits⟩, rfl, rfl⟩
      exact .text ⟨extended, validated, fits⟩
  | thinking thinking =>
    simp only [openBlock, openThinking, bind_eq_ok,
      Prod.exists, allocateContentIndex_eq_ok] at opened
    rcases opened with ⟨_, _, ⟨advanced, added, rfl, rfl⟩, opened⟩
    refine ⟨advanced, added, ?_⟩
    split at opened
    · next empty =>
        subst empty
        cases opened
        exact .thinking (.inl rfl)
    · simp only [bind_eq_ok, Prod.exists, Except.ok.injEq, Prod.mk.injEq] at opened
      rcases opened with ⟨_, _, pushed, rfl, rfl, rfl⟩
      rcases pushThinking_eq_ok pushed with ⟨fits, rfl, rfl⟩
      exact .thinking fits
  | redactedThinking data =>
    simp only [openBlock, openRedacted, reserveOpaqueThinking, bind_eq_ok, okOr_eq_ok,
      reject_eq_ok, exists_const, Prod.exists, allocateContentIndex_eq_ok, Except.ok.injEq,
      Prod.mk.injEq, Nat.not_lt] at opened
    rcases opened with
      ⟨_, ⟨_, sum, fits, rfl⟩, _, _, ⟨advanced, added, rfl, rfl⟩, rfl, rfl, rfl⟩
    rw [checkedAdd_eq_some sum] at fits ⊢
    exact ⟨advanced, added, .redacted fits⟩
  | toolUse id name input =>
    simp only [openBlock, openToolUse, bind_eq_ok, okOr_eq_ok, reject_eq_ok, exists_const,
      mapError_eq_ok, Prod.exists, allocateContentIndex_eq_ok, Except.ok.injEq, Prod.mk.injEq,
      Nat.not_le, not_or, Nat.not_lt] at opened
    rcases opened with ⟨room, toolId, validId, toolName, validName, _, _,
      ⟨advanced, added, rfl, rfl⟩, _, sum, ⟨fits, fitsAll⟩, rfl, rfl, rfl⟩
    rw [checkedAdd_eq_some sum] at fitsAll ⊢
    exact ⟨advanced, added, .toolUse room validId validName fits fitsAll⟩
  | unknown => exact absurd rfl known

theorem closing_of_closeBlock (closed : closeBlock library machine state = .ok events) :
    Closing library machine state events := by
  cases state with
  | text =>
    cases closed
    exact .text
  | unsupported =>
    cases closed
    exact .unsupported
  | redacted =>
    simp only [closeBlock, bind_eq_ok, Except.ok.injEq] at closed
    rcases closed with ⟨_, isSource, rfl⟩
    exact .redacted isSource
  | thinking _ signature =>
    simp only [closeBlock] at closed
    split at closed
    · next empty =>
        subst empty
        cases closed
        exact .thinking
    · next filled =>
        simp only [bind_eq_ok, Except.ok.injEq] at closed
        rcases closed with ⟨_, isSource, rfl⟩
        exact .signed filled isSource
  | toolUse =>
    simp only [closeBlock, closeToolUse, ToolArguments.fromRawJson, bind_eq_ok, mapError_eq_ok,
      reject_eq_ok, exists_const, Except.ok.injEq, Bool.not_eq_false] at closed
    rcases closed with ⟨_, ⟨value, parsed, rfl⟩, isObject, rfl⟩
    exact .toolUse parsed isObject

theorem step_of_applyDelta {kind : String} {delta : ContentBlockDeltaWire}
    (streaming : machine.phase = .streamingMessage)
    (found : lookup machine.blocks wireIndex = some state)
    (applied : { machine with eventsSeen }.applyDelta wireIndex state delta =
      .ok (next, events)) :
    Step library machine (.contentBlockDelta ⟨kind, wireIndex, delta⟩) next events := by
  unfold applyDelta at applied
  split at applied
  · rcases pushText_eq_ok applied with ⟨terminal, ⟨extended, validated, fits⟩, rfl, rfl⟩
    exact .text streaming found ⟨extended, validated, fits⟩
  · simp only [appendInput, bind_eq_ok, okOr_eq_ok, reject_eq_ok,
      exists_const, Except.ok.injEq, Prod.mk.injEq, not_or, Nat.not_lt] at applied
    rcases applied with ⟨_, sumOne, _, sumAll, ⟨fits, fitsAll⟩, rfl, rfl⟩
    rw [checkedAdd_eq_some sumAll] at fitsAll ⊢
    rw [checkedAdd_eq_some sumOne, Text.len, Text.len, ← String.utf8ByteSize_append] at fits
    exact .input streaming found fits fitsAll
  · rcases pushThinking_eq_ok applied with ⟨fits, rfl, rfl⟩
    exact .thinking streaming found fits
  · simp only [appendSignature, bind_eq_ok, okOr_eq_ok, reject_eq_ok,
      exists_const, Except.ok.injEq, Prod.mk.injEq, Nat.not_lt] at applied
    rcases applied with ⟨_, _, _, _, sum, fits, rfl, rfl⟩
    rw [checkedAdd_eq_some sum] at fits ⊢
    exact .signature streaming found fits
  · cases applied
    exact .ignored streaming found
  · cases applied
  · cases applied

theorem step_of_messageDelta {wire : MessageDeltaEventWire}
    (handled : { machine with eventsSeen }.messageDelta wire = .ok (next, events)) :
    Step library machine (.messageDelta wire) next events := by
  simp only [messageDelta, requireStreaming,
    bind_eq_ok, reject_eq_ok, exists_const, ne_eq, not_not, Bool.not_eq_false] at handled
  rcases handled with ⟨_, _, streaming, empty, usage, isMerged, handled⟩
  split at handled
  · next noReason =>
      cases handled
      exact .merged streaming isMerged noReason
  · next raw carries =>
      simp only [applyStopReason, bind_eq_ok, reject_eq_ok,
        exists_const, Except.ok.injEq, Prod.mk.injEq, not_and] at handled
      rcases handled with ⟨reason, isReason, hasTool, details, isDetails, rfl, rfl⟩
      exact .stopped streaming empty isMerged carries isReason hasTool isDetails

theorem step_of_handle {wire : WireEvent}
    (handled : handle library { machine with eventsSeen } wire =
      .ok (next, events)) : Step library machine wire next events := by
  cases wire with
  | messageStart start =>
    simp only [handle, messageStart, bind_eq_ok, reject_eq_ok, exists_const, mapError_eq_ok,
      Except.ok.injEq, Prod.mk.injEq, ne_eq, not_not] at handled
    rcases handled with ⟨_, _, waiting, _, _, isId, rfl, rfl⟩
    exact .started waiting isId
  | contentBlockStart start =>
    rcases start with ⟨kind, wireIndex, start⟩
    simp only [handle, blockStart, requireStreaming, bind_eq_ok, reject_eq_ok, exists_const,
      Prod.exists, Except.ok.injEq, Prod.mk.injEq, ne_eq, not_not] at handled
    rcases handled with ⟨_, _, streaming, _, absent, _, _, _, opened, rfl, rfl⟩
    have vacant := not_mem_iff_lookup.mp absent
    by_cases unknown : start = .unknown
    · subst unknown
      cases opened
      exact .unknown streaming vacant
    · rcases opening_of_openBlock unknown opened with ⟨advanced, added, opens⟩
      exact .opened streaming vacant added opens
  | contentBlockDelta delta =>
    simp only [handle, blockDelta, requireStreaming, bind_eq_ok, reject_eq_ok, okOr_eq_ok,
      exists_const, ne_eq, not_not] at handled
    rcases handled with ⟨_, _, streaming, state, found, applied⟩
    exact step_of_applyDelta streaming found applied
  | contentBlockStop stop =>
    simp only [handle, blockStop, requireStreaming, bind_eq_ok, reject_eq_ok, okOr_eq_ok,
      exists_const, Except.ok.injEq, Prod.mk.injEq, ne_eq, not_not] at handled
    rcases handled with ⟨_, _, streaming, state, found, _, closed, rfl, rfl⟩
    exact .closed streaming found (closing_of_closeBlock closed)
  | messageDelta => exact step_of_messageDelta handled
  | messageStop stop =>
    simp only [handle, messageStop, bind_eq_ok,
      reject_eq_ok, exists_const, okOr_eq_ok, StructuredTerminal.validateBeforeDone_eq_ok,
      Except.ok.injEq, Prod.mk.injEq, ne_eq, not_not] at handled
    rcases handled with ⟨_, _, waiting, reason, isReason, _, ⟨_, valid, rfl⟩, rfl, rfl⟩
    exact .ended waiting isReason valid
  | ping =>
    simp only [handle, bind_eq_ok, Except.ok.injEq, Prod.mk.injEq] at handled
    rcases handled with ⟨_, _, rfl, rfl⟩
    exact .ping
  | error => simp [handle, providerError] at handled
  | other =>
    cases handled
    exact .other

theorem step_of_accept {event : SseEvent}
    (accepted : accept library machine event = .ok (next, events)) :
    machine.phase ≠ .terminal ∧ ∃ wire, decodeEvent library event = .ok wire ∧
      Step library machine wire next events := by
  simp only [accept, bind_eq_ok, okOr_eq_ok, reject_eq_ok, exists_const] at accepted
  rcases accepted with ⟨eventsSeen, _, _, notTerminal, wire, decoded, handled⟩
  exact ⟨notTerminal, wire, decoded, step_of_handle handled⟩

end Inversion

theorem finish_eq_ok {machine : MessagesStateMachine Schema} {last : List AssistantEvent} :
    machine.finish = .ok last ↔
      machine.phase = .terminal ∧ machine.terminal.validated = true ∧
        ∃ reason, machine.finishReason = some reason ∧ [.done reason] = last := by
  unfold MessagesStateMachine.finish
  split
  · next atEnd => simp only [bind_eq_ok, okOr_eq_ok, Except.ok.injEq, atEnd, true_and]
  · next notEnded =>
      refine iff_of_false (by simp) ?_
      rintro ⟨isTerminal, validated, _⟩
      exact notEnded ⟨isTerminal, validated⟩

end Philo.AnthropicMessages
