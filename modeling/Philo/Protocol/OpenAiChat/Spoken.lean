import Philo.Domain.EventText
import Philo.Protocol.OpenAiChat.Agreement

/-! What the emitted events say of the machine's state: the text that they carry is the
text that was buffered for validation, all of it goes to one block, and they tell whether
there was a tool call or a refusal. -/

namespace Philo.OpenAiChat

open Result Std KeyedText ToolCallAccumulator ChatStateMachine

variable {Schema : Type}

/-! ## Tool calls -/

structure ToolsSpoken (tools next : ToolCallAccumulator) (events : List AssistantEvent) :
    Prop where
  limits : next.limits = tools.limits
  started : (!next.isEmpty) = (!tools.isEmpty || startsTool events)
  silent : textPieces events = []
  noRefusal : startsRefusal events = false
  ends : ∀ index call, .toolCallEnd index call ∈ events →
    jsonDepth call.arguments.value ≤ tools.limits.maxSchemaDepth

namespace ToolsSpoken

variable {tools next final : ToolCallAccumulator} {first second events : List AssistantEvent}

theorem of_quiet (limits : next.limits = tools.limits) (order : next.order = tools.order)
    (quiet : ∀ event ∈ events, event.isQuiet = true) : ToolsSpoken tools next events := by
  rcases quiet_events quiet with ⟨silent, noTool, noRefusal, noEnd⟩
  refine ⟨limits, ?_, silent, noRefusal, fun index call ended => absurd ended (noEnd index call)⟩
  rw [noTool, Bool.or_false, isEmpty, order]
  rfl

end ToolsSpoken

section Tools

variable {library : WireLibrary Schema} {tools next : ToolCallAccumulator}
  {wireIndex : WireToolIndex} {events : List AssistantEvent}

theorem spoken_observeKnown {pending : PendingToolCall} {id : Option ToolCallId}
    (observed : tools.observeKnown wireIndex pending id = .ok next) :
    ToolsSpoken tools next [] := by
  simp only [observeKnown, bind_eq_ok, reject_eq_ok, exists_const, Except.ok.injEq] at observed
  rcases observed with ⟨_, _, registered, accepted, rfl⟩
  rcases registerOptionalId_eq_ok accepted with ⟨seen, rfl, _⟩
  exact .of_quiet rfl rfl (by simp)

theorem spoken_observeNew {contentIndex : Option ContentIndex} {id : Option ToolCallId}
    (observed : tools.observeNew wireIndex contentIndex id = .ok (next, events)) :
    ToolsSpoken tools next events := by
  simp only [observeNew, bind_eq_ok, okOr_eq_ok, Except.ok.injEq, Prod.mk.injEq] at observed
  rcases observed with ⟨index, _, registered, accepted, rfl, rfl⟩
  rcases registerOptionalId_eq_ok accepted with ⟨seen, rfl, _⟩
  refine ⟨rfl, ?_, rfl, rfl, by simp⟩
  simp [isEmpty, startsTool]

theorem spoken_appendFragments {delta : ToolCallDeltaWire} {compat : ToolArgumentsCompat}
    (appended : appendFragments library tools wireIndex delta compat =
      .ok (next, events)) : ToolsSpoken tools next events := by
  rcases appendFragments_eq_ok appended with ⟨_, _, _, _, _, _, _, _, rfl, rfl⟩
  refine .of_quiet rfl rfl ?_
  split <;> simp [AssistantEvent.isQuiet]

theorem spoken_finishCall {event : AssistantEvent}
    (finished : finishCall library tools wireIndex =
      .ok (next, event)) : ToolsSpoken tools next [event] := by
  simp only [finishCall, completeCall, bind_eq_ok, okOr_eq_ok, reject_eq_ok, exists_const,
    mapError_eq_ok, Except.ok.injEq, Prod.mk.injEq, Nat.not_lt] at finished
  rcases finished with ⟨_, _, _, _, ⟨id, _, _, name, _, arguments, _, shallow, rfl⟩, rfl, rfl⟩
  refine ⟨rfl, by simp [isEmpty, setPending,
    startsTool], rfl, rfl, ?_⟩
  intro index call ended
  cases List.mem_singleton.mp ended
  exact shallow

end Tools

/-! ## The machine -/

def InOneBlock (block : ContentBlockState) (pieces : List (Nat × String)) : Prop :=
  match block with
  | .notStarted => pieces = []
  | .opened index => ∀ piece ∈ pieces, piece.1 = index.toNat
  | .closed => ∃ key, ∀ piece ∈ pieces, piece.1 = key

structure Spoken (machine next : ChatStateMachine Schema) (events : List AssistantEvent) :
    Prop where
  limits : next.tools.limits = machine.tools.limits
  terminal : machine.terminal.Extends next.terminal (answerText events)
  tools : (!next.tools.isEmpty) = (!machine.tools.isEmpty || startsTool events)
  refusal : decide (next.refusal ≠ .notStarted) =
    (decide (machine.refusal ≠ .notStarted) || startsRefusal events)
  text : ∀ pieces, InOneBlock machine.text pieces →
    InOneBlock next.text (pieces ++ textPieces events)
  ends : ∀ index call, .toolCallEnd index call ∈ events →
    jsonDepth call.arguments.value ≤ machine.tools.limits.maxSchemaDepth

structure Utters (machine next : ChatStateMachine Schema) (events : List AssistantEvent) :
    Prop extends Spoken machine next events where
  validated : next.terminal.validated = machine.terminal.validated

section Account

variable {machine next final : ChatStateMachine Schema}
  {first second events : List AssistantEvent}

theorem Spoken.trans (before : Spoken machine next first) (after : Spoken next final second) :
    Spoken machine final (first ++ second) where
  limits := after.limits.trans before.limits
  terminal := by
    rw [answerText_append]
    exact before.terminal.trans after.terminal
  tools := by rw [after.tools, before.tools, startsTool_append, Bool.or_assoc]
  refusal := by rw [after.refusal, before.refusal, startsRefusal_append, Bool.or_assoc]
  text pieces inOne := by
    rw [textPieces_append, ← List.append_assoc]
    exact after.text _ (before.text pieces inOne)
  ends index call ended := by
    rcases List.mem_append.mp ended with earlier | later
    · exact before.ends index call earlier
    · exact before.limits ▸ after.ends index call later

theorem Utters.trans (before : Utters machine next first) (after : Utters next final second) :
    Utters machine final (first ++ second) :=
  ⟨before.toSpoken.trans after.toSpoken, after.validated.trans before.validated⟩

theorem Utters.of_tools (tools : ToolsSpoken machine.tools next.tools events)
    (terminal : next.terminal = machine.terminal) (refusal : next.refusal = machine.refusal)
    (text : next.text = machine.text) : Utters machine next events where
  limits := tools.limits
  terminal := by
    rw [answerText, tools.silent, terminal]
    exact .refl _
  tools := tools.started
  refusal := by rw [refusal, tools.noRefusal, Bool.or_false]
  text pieces inOne := by rwa [tools.silent, List.append_nil, text]
  ends := tools.ends
  validated := by rw [terminal]

theorem Utters.of_quiet (tools : next.tools = machine.tools)
    (terminal : next.terminal = machine.terminal) (refusal : next.refusal = machine.refusal)
    (text : next.text = machine.text) (quiet : ∀ event ∈ events, event.isQuiet = true) :
    Utters machine next events :=
  .of_tools (.of_quiet (by rw [tools]) (by rw [tools]) quiet) terminal refusal text

theorem Utters.refl (machine : ChatStateMachine Schema) : Utters machine machine [] :=
  .of_quiet rfl rfl rfl rfl (by simp)

theorem Utters.of_text (tools : next.tools = machine.tools)
    (terminal : next.terminal = machine.terminal) (refusal : next.refusal = machine.refusal)
    (text : ∀ pieces, InOneBlock machine.text pieces → InOneBlock next.text pieces)
    (quiet : ∀ event ∈ events, event.isQuiet = true) : Utters machine next events := by
  rcases quiet_events quiet with ⟨silent, noTool, noRefusal, noEnd⟩
  refine ⟨⟨by rw [tools], ?_, ?_, ?_, ?_, fun index call ended =>
    absurd ended (noEnd index call)⟩, by rw [terminal]⟩
  · rw [answerText, silent, terminal]
    exact .refl _
  · rw [tools, noTool, Bool.or_false]
  · rw [refusal, noRefusal, Bool.or_false]
  · intro pieces inOne
    rw [silent, List.append_nil]
    exact text pieces inOne

end Account

section Handlers

variable {library : WireLibrary Schema} {machine next : ChatStateMachine Schema}
  {events : List AssistantEvent} {content : String}

theorem utters_textDelta {index : ContentIndex} {terminal : StructuredTerminal Schema}
    (isOpen : machine.text = .opened index)
    (buffered : machine.terminal.pushAnswerText content = .ok terminal) :
    Utters machine { machine with terminal } [.textDelta index content] := by
  rcases StructuredTerminal.extends_of_pushAnswerText buffered with ⟨extended, validated⟩
  refine ⟨⟨rfl, ?_, by simp [startsTool], by simp [startsRefusal], ?_, by simp⟩, validated⟩
  · simpa [answerText, textPieces] using extended
  · intro pieces inOne
    simp only [isOpen, InOneBlock] at inOne ⊢
    intro piece member
    rcases List.mem_append.mp member with earlier | new
    · exact inOne piece earlier
    · simp only [textPieces, List.filterMap_cons, List.filterMap_nil,
        List.mem_singleton] at new
      rw [new]

theorem utters_refusal {refusal : ContentBlockState} (silent : textPieces events = [])
    (noTool : startsTool events = false) (told : decide (refusal ≠ .notStarted) =
      (decide (machine.refusal ≠ .notStarted) || startsRefusal events))
    (noEnd : ∀ index call, .toolCallEnd index call ∉ events) (nextContentIndex : UInt32) :
    Utters machine { machine with refusal, nextContentIndex } events where
  limits := rfl
  terminal := by
    rw [answerText, silent]
    exact .refl _
  tools := by rw [noTool, Bool.or_false]
  refusal := told
  text pieces inOne := by rwa [silent, List.append_nil]
  ends index call ended := absurd ended (noEnd index call)
  validated := rfl

theorem Step.utters (step : Step library machine next events) : Utters machine next events := by
  cases step with
  | openText notStarted =>
    refine .of_text rfl rfl rfl ?_ (by simp [AssistantEvent.isQuiet])
    intro pieces inOne
    rw [notStarted] at inOne
    simp [InOneBlock, show pieces = [] from inOne]
  | text isOpen buffered => exact utters_textDelta isOpen buffered
  | @closeText index isOpen =>
    refine .of_text rfl rfl rfl ?_ (by simp [AssistantEvent.isQuiet])
    intro pieces inOne
    rw [isOpen] at inOne
    exact ⟨index.toNat, inOne⟩
  | openRefusal => exact utters_refusal rfl rfl (by simp [startsRefusal]) (by simp) _
  | refusal => exact .of_quiet rfl rfl rfl rfl (by simp [AssistantEvent.isQuiet])
  | closeRefusal isOpen =>
    exact utters_refusal rfl rfl (by simp [startsRefusal, isOpen]) (by simp) _
  | observe _ observes =>
    cases observes with
    | known _ observed => exact .of_tools (spoken_observeKnown observed) rfl rfl rfl
    | started _ _ _ observed => exact .of_tools (spoken_observeNew observed) rfl rfl rfl
  | fragments appended => exact .of_tools (spoken_appendFragments appended) rfl rfl rfl
  | endCall ended => exact .of_tools (spoken_finishCall ended) rfl rfl rfl
  | finish => exact .of_quiet rfl rfl rfl rfl (by simp)

theorem Steps.utters (steps : Steps library machine next events) :
    Utters machine next events := by
  induction steps with
  | refl => exact .refl _
  | tail _ step induction => exact induction.trans step.utters

/-! ## One event -/

theorem utters_emitStart (machine : ChatStateMachine Schema) :
    Utters machine machine.emitStart.1 machine.emitStart.2 := by
  unfold emitStart
  split
  · exact .refl _
  · exact .of_quiet rfl rfl rfl rfl (by simp [AssistantEvent.isQuiet])

theorem utters_applyUsage {usage : Option UsageDetails}
    (applied : machine.applyUsage usage = .ok (next, events)) : Utters machine next events := by
  rcases applyUsage_eq_ok applied with ⟨⟨_, rfl⟩, reported⟩
  refine .of_quiet rfl rfl rfl rfl ?_
  rcases reported with rfl | ⟨_, rfl | ⟨_, rfl⟩⟩ <;> simp [AssistantEvent.isQuiet]

structure Validates (library : WireLibrary Schema) (machine next : ChatStateMachine Schema)
    (events : List AssistantEvent) : Prop where
  accepts : ∃ reason, machine.finishReason = some reason ∧
    Succeeds (validateStructuredResponse library.toJsonLibrary machine.terminal.responseFormat
      reason (machine.terminal.textBuffer.getD "") (!machine.tools.isEmpty)
      (decide (machine.refusal ≠ .notStarted)) machine.terminal.schemaLimits)
  next_eq : next = { machine with
    terminal := { machine.terminal with validated := true }, seenDone := true }
  silent : events = []

theorem Validates.spoken (validates : Validates library machine next events) :
    Spoken machine next events := by
  rcases validates with ⟨_, rfl, rfl⟩
  exact ⟨rfl, ⟨rfl, rfl, by simp [answerText, textPieces]⟩, by simp [startsTool],
    by simp [startsRefusal], fun pieces inOne => by simpa [textPieces] using inOne, by simp⟩

theorem accept_account {event : SseEvent}
    (accepted : accept library machine event = .ok (next, events)) : machine.seenDone = false ∧
      (Utters machine next events ∨ Validates library machine next events) := by
  refine ⟨(accept_cases accepted).1, ?_⟩
  cases (accept_cases accepted).2 with
  | marker _ finishReason validated =>
    rcases StructuredTerminal.validateBeforeDone_eq_ok.mp validated with ⟨_, valid, rfl⟩
    exact .inr ⟨⟨_, finishReason, valid⟩, rfl, rfl⟩
  | @chunk _ prepared _ _ _ observed chosen _ _ _ _ _ _ identity choice usage =>
    have identified : Utters machine observed [] := by
      rw [identity]
      exact .of_quiet rfl rfl rfl rfl (by simp)
    have steps : Steps library observed.emitStart.1 chosen _ :=
      steps_elim (fun _ => steps_applyChoice) choice
    have noted : Utters chosen { chosen with
        duplicateFinishSeen := chosen.duplicateFinishSeen || prepared.duplicateFinish } [] :=
      .of_quiet rfl rfl rfl rfl (by simp)
    have started := identified.trans (utters_emitStart observed)
    exact .inl ((started.trans steps.utters).trans (noted.trans (utters_applyUsage usage)))

theorem accept_spoken {event : SseEvent}
    (accepted : accept library machine event = .ok (next, events)) :
    Spoken machine next events := by
  rcases (accept_account accepted).2 with utters | validates
  · exact utters.toSpoken
  · exact validates.spoken

end Handlers

end Philo.OpenAiChat
