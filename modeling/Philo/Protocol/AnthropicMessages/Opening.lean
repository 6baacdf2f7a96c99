import Philo.Protocol.AnthropicMessages.Follows

/-! Opening a block: what the machine emits at `content_block_start`, and that
the collector takes it unless a tool call repeats a wire index or an id. -/

namespace Philo.AnthropicMessages

open Result Std MessagesStateMachine Collector OpenBlock

variable {Schema : Type}

/-- The fields that the relation reads, except the blocks, are those of before,
up to the next content index. -/
structure Frame (before after : MessagesStateMachine Schema) : Prop where
  blocks : after.blocks = before.blocks
  phase : after.phase = before.phase
  toolCalls : after.toolCalls = before.toolCalls
  finishReason : after.finishReason = before.finishReason

/-! ## Deltas for an open block -/

section Deltas

variable {index : ContentIndex} {before : String}

theorem textDeltas_extend (text : String) :
    (∀ event ∈ textDeltas index text, event.extended? = some index) ∧
      (textDeltas index text).foldlM extend (.text before) =
        some (.text (before ++ text)) := by
  unfold textDeltas
  split <;> simp_all [AssistantEvent.extended?, extend]

theorem thinkingDeltas_extend (thinking : String) :
    (∀ event ∈ thinkingDeltas index thinking, event.extended? = some index) ∧
      (thinkingDeltas index thinking).foldlM extend (.thinking before none) =
        some (.thinking (before ++ thinking) none) := by
  unfold thinkingDeltas
  split <;> simp_all [AssistantEvent.extended?, extend]

theorem inputDeltas_extend (library : WireLibrary Schema) (wireIndex : WireToolIndex)
    (id : Option ToolCallId) (name : String) (input : Json) :
    (∀ event ∈ inputDeltas library index wireIndex input, event.extended? = some index) ∧
      (inputDeltas library index wireIndex input).foldlM extend
          (.toolCall wireIndex id name "") =
        some (.toolCall wireIndex id name
          (initialInput library input)) := by
  unfold inputDeltas initialInput
  split <;> simp_all [AssistantEvent.extended?, extend]

end Deltas

namespace Opening

variable {library : WireLibrary Schema} {machine next : MessagesStateMachine Schema}
  {collector : Collector} {wireIndex advanced : UInt32} {start : ContentBlockStartWire}
  {state : BlockState} {events : List AssistantEvent} {eventsSeen : Nat}

theorem frame (opens : Opening library machine wireIndex advanced eventsSeen start next state
    events) (plain : state.arguments? = none) :
    Frame machine next ∧ next.nextContentIndex = advanced ∧
      state.index? = some machine.nextContentIndex := by
  cases opens with
  | toolUse => cases plain
  | _ => exact ⟨⟨rfl, rfl, rfl, rfl⟩, rfl, rfl⟩

theorem accepted (opens : Opening library machine wireIndex advanced eventsSeen start next
    state events) (plain : state.arguments? = none) (follows : Follows machine collector)
    (added : checkedAddU32 machine.nextContentIndex 1 = some advanced) : ∃ openBlocks block,
      consumer.acceptAll collector events =
          .ok { collector with nextContentIndex := advanced, openBlocks } ∧
        lookup openBlocks = Function.update (lookup collector.openBlocks)
            machine.nextContentIndex (some block) ∧
          Represents wireIndex state block := by
  cases opens with
  | toolUse => cases plain
  | @text text =>
    rw [← follows.next] at added ⊢
    rcases textDeltas_extend text with ⟨areDeltas, extended⟩
    rcases follows.sound.acceptAll_start follows.notDone added (apply_textStart _)
      areDeltas extended with ⟨openBlocks, accepted, openAt⟩
    exact ⟨openBlocks, _, accepted, openAt, _, rfl⟩
  | @thinking thinking =>
    rw [← follows.next] at added ⊢
    rcases thinkingDeltas_extend thinking with ⟨areDeltas, extended⟩
    rcases follows.sound.acceptAll_start follows.notDone added
      (apply_thinkingStart _) areDeltas extended with ⟨openBlocks, accepted, openAt⟩
    exact ⟨openBlocks, _, accepted, openAt, _, rfl⟩
  | redacted =>
    rw [← follows.next] at added ⊢
    rcases follows.sound.acceptAll_start follows.notDone added
      (apply_thinkingStart _) (List.forall_mem_nil _) rfl with
      ⟨openBlocks, accepted, openAt⟩
    exact ⟨openBlocks, _, accepted, openAt, _, rfl⟩

end Opening

variable {wireIndex : UInt32} {machine : MessagesStateMachine Schema} {collector : Collector}
  {blocksStarted eventsSeen : Nat}

theorem pending_insert_plain {blocks : TreeMap UInt32 BlockState} {state : BlockState}
    (vacant : lookup blocks wireIndex = none) (plain : state.arguments? = none) :
    (fun other => (lookup (blocks.insert wireIndex state) other).bind
        BlockState.arguments?) =
      fun other => (lookup blocks other).bind BlockState.arguments? := by
  funext other
  rw [lookup_insert]
  by_cases same : other = wireIndex
  · simp [same, vacant, plain]
  · rw [Function.update_of_ne same]

theorem carried_plainStart {library : WireLibrary Schema} {next : MessagesStateMachine Schema}
    {advanced : UInt32} {start : ContentBlockStartWire} {state : BlockState}
    {events : List AssistantEvent}
    (follows : Follows machine collector) (streaming : machine.phase = .streamingMessage)
    (vacant : lookup machine.blocks wireIndex = none)
    (added : checkedAddU32 machine.nextContentIndex 1 = some advanced)
    (opens : Opening library machine wireIndex advanced eventsSeen start next state events)
    (plain : state.arguments? = none) : Carried collector
      { next with blocks := next.blocks.insert wireIndex state, blocksStarted } events
      { progress machine collector with hasContent := True } := by
  rcases opens.accepted plain follows added with
    ⟨openBlocks, block, accepted, openAt, represents⟩
  rcases opens.frame plain with ⟨frame, rfl, placed⟩
  refine ⟨_, accepted, ⟨?_, follows.notDone, rfl, ?_, ?_, ?_⟩, ?_⟩
  · exact acceptAll_sound follows.sound accepted
  · rw [frame.blocks, lookup_insert]
    change Linked _ _ _ (lookup openBlocks)
    rw [openAt]
    exact follows.linked.insert vacant follows.next_vacant placed represents
  · rw [frame.toolCalls]
    exact follows.tools
  · simp only [InPhase, frame.phase, streaming, frame.finishReason]
    exact follows.streaming streaming
  · simp only [progress, frame.blocks, pending_insert_plain vacant plain,
      frame.toolCalls, frame.finishReason, ne_eq, advanced_ne_zero added, not_false_eq_true]

theorem carried_unknownStart
    (follows : Follows machine collector) (streaming : machine.phase = .streamingMessage)
    (vacant : lookup machine.blocks wireIndex = none) : Carried collector
      { machine with
        blocks := machine.blocks.insert wireIndex .unsupported
        blocksStarted
        eventsSeen }
      [] (progress machine collector) := by
  refine ⟨collector, rfl, ⟨follows.sound, follows.notDone, follows.next, ?_, follows.tools, ?_⟩, ?_⟩
  · rw [lookup_insert]
    exact follows.linked.insert_unplaced vacant rfl
  · simp only [InPhase, streaming]
    exact follows.streaming streaming
  · have plain : BlockState.unsupported.arguments? = none := rfl
    simp only [progress, pending_insert_plain vacant plain]

/-! ### Opening a tool call -/

theorem accepted_toolStart (library : WireLibrary Schema)
    {machine : MessagesStateMachine Schema} {collector : Collector} {wireIndex : UInt32}
    {toolId : ToolCallId} (toolName : ToolName) (input : Json) {advanced : UInt32}
    (follows : Follows machine collector)
    (added : checkedAddU32 machine.nextContentIndex 1 = some advanced)
    (newIndex : wireIndex ∉ collector.toolWireIndexes) (newId : toolId ∉ collector.toolCallIds) :
    ∃ openBlocks,
      consumer.acceptAll collector
          ([.toolCallStart machine.nextContentIndex wireIndex (some toolId),
            .toolCallDelta machine.nextContentIndex wireIndex (some toolName.value) none] ++
            inputDeltas library machine.nextContentIndex wireIndex input) =
        .ok { collector with
          nextContentIndex := advanced
          openBlocks
          toolWireIndexes := collector.toolWireIndexes.insert wireIndex
          toolCallIds := collector.toolCallIds.insert toolId } ∧
      lookup openBlocks = Function.update (lookup collector.openBlocks)
        machine.nextContentIndex (some (.toolCall wireIndex (some toolId) toolName.value
          (initialInput library input))) := by
  let index := machine.nextContentIndex
  let started : Collector := { collector with
    nextContentIndex := advanced
    openBlocks := collector.openBlocks.insert index (.toolCall wireIndex (some toolId) "" "")
    toolWireIndexes := collector.toolWireIndexes.insert wireIndex
    toolCallIds := collector.toolCallIds.insert toolId }
  have first : consumer.accept collector
      (.toolCallStart index wireIndex (some toolId)) = .ok started := by
    rw [follows.accept_eq_apply]
    have absent := follows.sound.next_not_mem
    rw [follows.next] at absent
    refine acceptToolCallStart_eq_ok.mpr ⟨newIndex, by simpa using newId, ?_⟩
    refine startBlock_eq_ok.mpr ⟨follows.next.symm, absent.1, absent.2, advanced, ?_, rfl⟩
    change checkedAddU32 collector.nextContentIndex 1 = _
    rw [follows.next]
    exact added
  rcases @inputDeltas_extend _ index library wireIndex (some toolId) toolName.value input with
    ⟨areDeltas, extended⟩
  rcases @acceptAll_extended started index (.toolCall wireIndex (some toolId) "" "") _
    (.toolCallDelta index wireIndex (some toolName.value) none :: _) follows.notDone
    (by simp [started, lookup_insert]) (List.forall_mem_cons.mpr ⟨rfl, areDeltas⟩)
    (by simpa [extend] using extended) with ⟨openBlocks, accepted, openAt⟩
  refine ⟨openBlocks, ?_, by simpa [started, lookup_insert] using openAt⟩
  rw [List.cons_append, Consumer.acceptAll_cons, first]
  exact accepted

theorem refused_toolStart {index : ContentIndex} {toolId : ToolCallId}
    {rest : List AssistantEvent} (follows : Follows machine collector)
    (used : wireIndex ∈ collector.toolWireIndexes ∨ toolId ∈ collector.toolCallIds) :
    ¬ Succeeds (consumer.acceptAll collector
      (.toolCallStart index wireIndex (some toolId) :: rest)) := by
  rintro ⟨final, accepted⟩
  simp only [Consumer.acceptAll_cons, bind_eq_ok, follows.accept_eq_apply] at accepted
  rcases accepted with ⟨started, first, _⟩
  rcases acceptToolCallStart_eq_ok.mp first with ⟨newIndex, newId, _⟩
  rcases used with used | used
  · exact newIndex used
  · exact newId toolId rfl used

theorem carried_toolStart {library : WireLibrary Schema} {toolId : ToolCallId}
    {toolName : ToolName} {input : Json} {advanced : UInt32} {allToolArgumentBytes : Nat}
    (follows : Follows machine collector) (streaming : machine.phase = .streamingMessage)
    (vacant : lookup machine.blocks wireIndex = none)
    (added : checkedAddU32 machine.nextContentIndex 1 = some advanced)
    (newIndex : wireIndex ∉ collector.toolWireIndexes) (newId : toolId ∉ collector.toolCallIds) :
    Carried collector
      { machine with
        nextContentIndex := advanced
        toolCalls := machine.toolCalls + 1
        allToolArgumentBytes
        eventsSeen
        blocks := machine.blocks.insert wireIndex (.toolUse machine.nextContentIndex toolId
          toolName (initialInput library input))
        blocksStarted }
      ([.toolCallStart machine.nextContentIndex wireIndex (some toolId),
        .toolCallDelta machine.nextContentIndex wireIndex (some toolName.value) none] ++
          inputDeltas library machine.nextContentIndex wireIndex input)
      ((progress machine collector).openTool wireIndex toolId.value
        (initialInput library input)) := by
  rcases accepted_toolStart library toolName input follows added newIndex newId with
    ⟨openBlocks, accepted, openAt⟩
  refine ⟨_, accepted, ⟨?_, follows.notDone, rfl, ?_, ?_, ?_⟩, ?_⟩
  · exact acceptAll_sound follows.sound accepted
  · rw [lookup_insert]
    change Linked _ _ _ (lookup openBlocks)
    rw [openAt]
    exact follows.linked.insert vacant follows.next_vacant rfl rfl
  · simp only [Nat.zero_lt_succ, true_iff]
    exact ⟨wireIndex, by simp⟩
  · simp only [InPhase, streaming]
    exact follows.streaming streaming
  · simp only [progress, Progress.openTool, Nat.zero_lt_succ, ne_eq, advanced_ne_zero added,
      not_false_eq_true, Progress.mk.injEq, and_true]
    refine ⟨?_, ?_, ?_⟩
    · funext other
      rw [mem_set_insert_iff]
    · funext value
      simp only [mem_set_insert_iff, or_and_right, exists_or, exists_eq_left]
      rw [eq_comm (a := value)]
    · funext other
      rw [lookup_insert]
      by_cases same : other = wireIndex
      · simp [same, BlockState.arguments?]
      · rw [Function.update_of_ne same, Function.update_of_ne same]

end Philo.AnthropicMessages
