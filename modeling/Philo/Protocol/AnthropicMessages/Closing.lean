import Philo.Protocol.AnthropicMessages.Opening

/-! Deltas, the end of a block, and the end of the message. The collector refuses
only the end of a tool call that received no input. -/

namespace Philo.AnthropicMessages

open Result Std Collector Function

variable {Schema : Type} {library : WireLibrary Schema}
  {machine next : MessagesStateMachine Schema} {collector : Collector} {wireIndex : UInt32}
  {state : BlockState} {index : ContentIndex} {events : List AssistantEvent}
  {eventsSeen : Nat}

section Streaming

variable (follows : Follows machine collector) (streaming : machine.phase = .streamingMessage)

include follows streaming

theorem carried_updated {openBlocks : TreeMap ContentIndex OpenBlock}
    {content : TreeMap ContentIndex ContentPart} (state? : Option BlockState)
    (accepted : consumer.acceptAll collector events =
      .ok { collector with openBlocks, content })
    (blocks : lookup next.blocks =
      update (lookup machine.blocks) wireIndex state?)
    (linked : Linked BlockState.index? Represents
      (update (lookup machine.blocks) wireIndex state?) (lookup openBlocks))
    (phase : next.phase = machine.phase) (toolCalls : next.toolCalls = machine.toolCalls)
    (finishReason : next.finishReason = machine.finishReason)
    (nextIndex : next.nextContentIndex = machine.nextContentIndex) :
    Carried collector next events ((progress machine collector).setPending wireIndex
      (state?.bind BlockState.arguments?)) := by
  refine ⟨_, accepted, ⟨?_, follows.notDone, follows.next.trans nextIndex.symm,
    blocks ▸ linked, toolCalls ▸ follows.tools, ?_⟩, ?_⟩
  · exact acceptAll_sound follows.sound accepted
  · simp only [InPhase, phase, streaming, finishReason]
    exact follows.streaming streaming
  · simp only [progress, Progress.setPending, toolCalls, finishReason, nextIndex, blocks,
      Progress.mk.injEq, and_true, true_and]
    funext other
    by_cases same : other = wireIndex
    · simp [same]
    · simp [update_of_ne same]

/-! ## Deltas -/

theorem carried_deltas {block block' : OpenBlock} (state' : BlockState)
    (found : lookup machine.blocks wireIndex = some state)
    (placed : state.index? = some index) (samePlace : state'.index? = some index)
    (openAt : lookup collector.openBlocks index = some block)
    (deltas : (∀ event ∈ events, event.extended? = some index) ∧
      events.foldlM OpenBlock.extend block = some block')
    (represents : Represents wireIndex state' block') (blocks : lookup next.blocks =
      update (lookup machine.blocks) wireIndex (some state'))
    (phase : next.phase = machine.phase) (toolCalls : next.toolCalls = machine.toolCalls)
    (finishReason : next.finishReason = machine.finishReason)
    (nextIndex : next.nextContentIndex = machine.nextContentIndex) : Carried collector next events
      ((progress machine collector).setPending wireIndex state'.arguments?) := by
  rcases acceptAll_extended follows.notDone openAt deltas.1 deltas.2 with
    ⟨openBlocks, accepted, nowOpen⟩
  refine carried_updated follows streaming (some state') accepted blocks ?_ phase toolCalls
    finishReason nextIndex
  rw [nowOpen]
  exact follows.linked.modify found placed samePlace represents

omit follows streaming in
theorem setPending_plain (found : lookup machine.blocks wireIndex = some state)
    (plain : state.arguments? = none) :
    (progress machine collector).setPending wireIndex none = progress machine collector := by
  have vacant : (progress machine collector).pending wireIndex = none := by
    simp [progress, found, plain]
  rw [Progress.setPending, update_eq_self_iff.mpr vacant.symm]

theorem carried_text {text : String} {answerTextBytes : Nat}
    {terminal : StructuredTerminal Schema}
    (found : lookup machine.blocks wireIndex = some (.text index)) :
    Carried collector { machine with answerTextBytes, terminal, eventsSeen }
      (textDeltas index text) (progress machine collector) := by
  rcases follows.linked.represented _ _ index found rfl with ⟨_, openAt, before, rfl⟩
  rw [← setPending_plain found rfl]
  exact carried_deltas follows streaming (.text index) found rfl rfl openAt
    (textDeltas_extend text) ⟨_, rfl⟩ (update_eq_self_iff.mpr found.symm).symm
    rfl rfl rfl rfl

theorem carried_thinking {signature thinking : String} {thinkingTextBytes : Nat}
    (found : lookup machine.blocks wireIndex = some (.thinking index signature)) :
    Carried collector { machine with thinkingTextBytes, eventsSeen }
      (thinkingDeltas index thinking) (progress machine collector) := by
  rcases follows.linked.represented _ _ index found rfl with ⟨_, openAt, before, rfl⟩
  rw [← setPending_plain found rfl]
  exact carried_deltas follows streaming (.thinking index signature) found rfl rfl openAt
    (thinkingDeltas_extend thinking) ⟨_, rfl⟩
    (update_eq_self_iff.mpr found.symm).symm rfl rfl rfl rfl

theorem carried_signature {signature delta : String} {opaqueThinkingBytes : Nat}
    (found : lookup machine.blocks wireIndex = some (.thinking index signature)) :
    Carried collector
      { machine with
        blocks := machine.blocks.insert wireIndex (.thinking index (signature ++ delta))
        opaqueThinkingBytes
        eventsSeen }
      [] (progress machine collector) := by
  rcases follows.linked.represented _ _ index found rfl with ⟨_, openAt, before, rfl⟩
  rw [← setPending_plain found rfl]
  exact carried_deltas follows streaming (.thinking index (signature ++ delta)) found rfl rfl
    openAt ⟨List.forall_mem_nil _, rfl⟩ ⟨before, rfl⟩ (lookup_insert _ _ _) rfl rfl rfl rfl

theorem carried_input {callId : ToolCallId} {name : ToolName}
    {arguments partialJson : String} {allToolArgumentBytes : Nat}
    (found : lookup machine.blocks wireIndex = some (.toolUse index callId name arguments)) :
    Carried collector
      { machine with
        blocks := machine.blocks.insert wireIndex
          (.toolUse index callId name (arguments ++ partialJson))
        allToolArgumentBytes
        eventsSeen }
      [.toolCallDelta index wireIndex none (some partialJson)]
      ((progress machine collector).setPending wireIndex (some (arguments ++ partialJson))) := by
  rcases follows.linked.represented _ _ index found rfl with ⟨_, openAt, rfl⟩
  refine carried_deltas follows streaming (.toolUse index callId name (arguments ++ partialJson))
    found rfl rfl openAt ⟨List.forall_mem_singleton.mpr rfl, ?_⟩ rfl (lookup_insert _ _ _)
    rfl rfl rfl rfl
  simp [OpenBlock.extend]

/-! ## Closing a block -/

theorem carried_closed {block block' : OpenBlock} {part : ContentPart}
    (deltas : List AssistantEvent) (ending : AssistantEvent)
    (found : lookup machine.blocks wireIndex = some state) (placed : state.index? = some index)
    (openAt : lookup collector.openBlocks index = some block)
    (areDeltas : ∀ event ∈ deltas, event.extended? = some index)
    (extended : deltas.foldlM OpenBlock.extend block = some block')
    (closes : ending.closed? = some index) (isPart : block'.part? ending = some part) :
    Carried collector { machine with blocks := machine.blocks.erase wireIndex, eventsSeen }
      (deltas ++ [ending]) ((progress machine collector).setPending wireIndex none) := by
  rcases follows.sound.acceptAll_end follows.notDone openAt areDeltas extended closes isPart with
    ⟨openBlocks, content, accepted, nowOpen⟩
  refine carried_updated follows streaming none accepted (lookup_erase _ _) ?_ rfl rfl rfl rfl
  rw [nowOpen]
  exact follows.linked.erase found placed

theorem carried_closedByOne {event : AssistantEvent} {part : ContentPart}
    (found : lookup machine.blocks wireIndex = some state) (placed : state.index? = some index)
    (applied : collector.apply event = .ok (collector.close index part)) :
    Carried collector { machine with blocks := machine.blocks.erase wireIndex, eventsSeen }
      [event] ((progress machine collector).setPending wireIndex none) := by
  refine carried_updated follows streaming none
    (congrArg (· >>= _) ((follows.accept_eq_apply event).trans applied)) (lookup_erase _ _) ?_
    rfl rfl rfl rfl
  rw [lookup_erase]
  exact follows.linked.erase found placed

theorem carried_unknownStop (found : lookup machine.blocks wireIndex = some .unsupported) :
    Carried collector { machine with blocks := machine.blocks.erase wireIndex, eventsSeen } []
      ((progress machine collector).setPending wireIndex none) :=
  carried_updated follows streaming none rfl (lookup_erase _ _)
    (follows.linked.erase_unplaced found rfl) rfl rfl rfl rfl

end Streaming

/-- The input text that the machine reports at the end of a tool call is the text that it
received, if it received any. -/
theorem reported_iff {arguments : String} :
    arguments = (if arguments = "" then "\x7b\x7d" else arguments) ↔ arguments ≠ "" := by
  by_cases empty : arguments = ""
  · subst arguments
    decide
  · simp [empty]

theorem carried_stop
    (follows : Follows machine collector) (streaming : machine.phase = .streamingMessage)
    (found : lookup machine.blocks wireIndex = some state)
    (closes : Closing library machine state events) :
    (Carried collector { machine with blocks := machine.blocks.erase wireIndex, eventsSeen }
        events ((progress machine collector).setPending wireIndex none) ∧
      (progress machine collector).pending wireIndex ≠ some "") ∨
    (¬ Succeeds (consumer.acceptAll collector events) ∧
      (progress machine collector).pending wireIndex = some "") := by
  have pending : (progress machine collector).pending wireIndex = state.arguments? := by
    simp [progress, found]
  rw [pending]
  cases closes with
  | text | thinking =>
    rcases follows.linked.represented _ _ _ found rfl with ⟨_, openAt, text, rfl⟩
    exact .inl ⟨carried_closed follows streaming [] _ found rfl openAt (List.forall_mem_nil _)
      rfl rfl rfl, by rintro ⟨⟩⟩
  | @toolUse arguments =>
    rcases follows.linked.represented _ _ _ found rfl with ⟨_, openAt, rfl⟩
    by_cases empty : arguments = ""
    · refine .inr ⟨?_, congrArg some empty⟩
      rintro ⟨final, accepted⟩
      simp only [Consumer.acceptAll_cons, bind_eq_ok, follows.accept_eq_apply] at accepted
      rcases accepted with ⟨ended, first, _⟩
      exact apply_toolCallEnd_refused openAt
        (fun same => reported_iff.mp same empty) ⟨ended, first⟩
    · exact .inl ⟨carried_closedByOne follows streaming found rfl
        (apply_toolCallEnd_announced follows.sound openAt (reported_iff.mpr empty)),
        fun none => empty (Option.some.inj none)⟩
  | signed | redacted =>
    rcases follows.linked.represented _ _ _ found rfl with ⟨_, openAt, text, rfl⟩
    exact .inl ⟨carried_closed follows streaming [_] _ found rfl openAt
      (List.forall_mem_singleton.mpr rfl) rfl rfl rfl, by rintro ⟨⟩⟩
  | unsupported => exact .inl ⟨carried_unknownStop follows streaming found, by rintro ⟨⟩⟩

/-! ## The end of the message -/

theorem acceptAll_detailedUsage {details : UsageDetails} (known : Bool)
    (follows : Follows machine collector) (unreported : collector.usageDetails = none) :
    ∃ usageDetails, consumer.acceptAll collector
      (if known then [.detailedUsage details] else []) =
        .ok { collector with usageDetails } := by
  cases known with
  | false => exact ⟨collector.usageDetails, rfl⟩
  | true =>
    refine ⟨some details, ?_⟩
    simp [follows.accept_eq_apply, apply, unreported]

theorem carried_merged {usageSnapshot : Option UsageWire} (follows : Follows machine collector)
    (streaming : machine.phase = .streamingMessage) :
    Carried collector { machine with usageSnapshot, eventsSeen } []
      (progress machine collector) := by
  refine ⟨collector, rfl, ⟨follows.sound, follows.notDone, follows.next, follows.linked,
    follows.tools, ?_⟩, rfl⟩
  simp only [InPhase, streaming]
  exact follows.streaming streaming

theorem carried_stopped {usageSnapshot : Option UsageWire} {reason : FinishReason}
    {details : UsageDetails} (follows : Follows machine collector)
    (streaming : machine.phase = .streamingMessage) (empty : machine.blocks.isEmpty = true)
    (hasTool : reason = .toolCalls → machine.toolCalls ≠ 0) : Carried collector
      { machine with
        usageSnapshot
        finishReason := some reason
        phase := .awaitMessageStop
        usageEmitted := details.hasAnyKnown
        eventsSeen }
      (if details.hasAnyKnown then [.detailedUsage details] else [])
      { progress machine collector with stopped := some reason } := by
  rcases acceptAll_detailedUsage details.hasAnyKnown follows (follows.streaming streaming).1 with
    ⟨usageDetails, accepted⟩
  refine ⟨_, accepted, ⟨?_, follows.notDone, follows.next, follows.linked, follows.tools,
    ?_, ?_⟩, rfl⟩
  · exact acceptAll_sound follows.sound accepted
  · exact isEmpty_iff_lookup.mp empty
  · intro toolReason
    exact Nat.pos_of_ne_zero (hasTool (Option.some.inj toolReason))

theorem carried_ended {terminal : StructuredTerminal Schema}
    (follows : Follows machine collector) (waiting : machine.phase = .awaitMessageStop) :
    Carried collector { machine with terminal, phase := .terminal, eventsSeen } []
      (progress machine collector) := by
  have atEnd := follows.phase
  simp only [InPhase, waiting] at atEnd
  exact ⟨collector, rfl, ⟨follows.sound, follows.notDone, follows.next, follows.linked,
    follows.tools, atEnd⟩, rfl⟩

end Philo.AnthropicMessages
