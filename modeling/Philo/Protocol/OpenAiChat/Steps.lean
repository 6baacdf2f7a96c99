import Philo.Foundation.Table
import Philo.Protocol.OpenAiChat.Machine

/-! What the machine can do. One choice of a chunk is a sequence of steps on the blocks,
and an accepted event is one choice between a start and a usage report, or the marker that
ends the stream. -/

namespace Philo.OpenAiChat

open Result Std ChatStateMachine ToolCallAccumulator

variable {Schema : Type} {library : WireLibrary Schema} {machine next : ChatStateMachine Schema}
  {events : List AssistantEvent} {content : String}

/-! ## One delta of a tool call -/

theorem allocateContentIndex_eq_ok {index : ContentIndex} :
    machine.allocateContentIndex = .ok (next, index) ↔
      ∃ advanced, checkedAddU32 machine.nextContentIndex 1 = some advanced ∧
        { machine with nextContentIndex := advanced } = next ∧
          machine.nextContentIndex = index := by
  simp only [allocateContentIndex, bind_eq_ok, okOr_eq_ok, Except.ok.injEq, Prod.mk.injEq]

inductive Observes (machine : ChatStateMachine Schema) (wireIndex : WireToolIndex) :
    ChatStateMachine Schema → List AssistantEvent → Prop
  | known {call : PendingToolCall} {id : Option ToolCallId} {changed : ToolCallAccumulator}
      (found : lookup machine.tools.pendingByWireIndex wireIndex = some call)
      (observed : machine.tools.observeKnown wireIndex call id = .ok changed) :
      Observes machine wireIndex { machine with tools := changed } []
  | started {id : Option ToolCallId} {advanced : UInt32} {changed : ToolCallAccumulator}
      {events : List AssistantEvent}
      (isNew : lookup machine.tools.pendingByWireIndex wireIndex = none)
      (room : machine.tools.order.length < machine.tools.limits.maxToolCalls)
      (added : checkedAddU32 machine.nextContentIndex 1 = some advanced)
      (observed : machine.tools.observeNew wireIndex (some machine.nextContentIndex) id =
        .ok (changed, events)) :
      Observes machine wireIndex { machine with nextContentIndex := advanced, tools := changed }
        events

theorem pushToolDelta_eq_ok {delta : ToolCallDeltaWire}
    (pushed : pushToolDelta library machine delta = .ok (next, events)) :
    machine.finishReason = none ∧ ∃ wireIndex middle started tools appended,
      Observes machine wireIndex middle started ∧
      appendFragments library middle.tools wireIndex delta
        middle.responseCompat.toolArguments = .ok (tools, appended) ∧
      next = { middle with tools } ∧ events = started ++ appended := by
  simp only [pushToolDelta, prepareTool, prepare, observeDelta, bind_eq_ok, reject_eq_ok,
    exists_const, Prod.exists, Except.ok.injEq, Prod.mk.injEq, Bool.not_eq_true,
    Option.isSome_eq_false_iff, Option.isNone_iff_eq_none] at pushed
  rcases pushed with ⟨_, unfinished, _, wireIndex, _, middle, contentIndex, ⟨isNew, prepared,
    allocated⟩, tools, _, ⟨id, _, started, startEvents, observed, final, appendEvents, appended,
    rfl, rfl⟩, rfl, rfl⟩
  refine ⟨unfinished, wireIndex, { middle with tools := started }, startEvents, final,
    appendEvents, ?_, appended, rfl, rfl⟩
  split at prepared
  · next known =>
      cases prepared
      simp only [Bool.false_eq_true, ↓reduceIte, Except.ok.injEq, Prod.mk.injEq] at allocated
      rcases allocated with ⟨rfl, rfl⟩
      rcases mem_iff_lookup.mp known with ⟨pending, found⟩
      have atIndex : machine.tools.pendingByWireIndex[wireIndex]? = some pending := found
      simp only [observeCall, atIndex, bind_eq_ok, Except.ok.injEq, Prod.mk.injEq] at observed
      rcases observed with ⟨_, observed, rfl, rfl⟩
      exact .known found observed
  · next unknown =>
      simp only [bind_eq_ok, reject_eq_ok, exists_const, Except.ok.injEq, Nat.not_le] at prepared
      rcases prepared with ⟨room, rfl⟩
      simp only [↓reduceIte, bind_eq_ok, Prod.exists, allocateContentIndex_eq_ok,
        Except.ok.injEq, Prod.mk.injEq] at allocated
      rcases allocated with ⟨_, _, ⟨advanced, added, rfl, rfl⟩, rfl, rfl⟩
      have vacant := not_mem_iff_lookup.mp unknown
      have atIndex : machine.tools.pendingByWireIndex[wireIndex]? = none := vacant
      simp only [observeCall, atIndex] at observed
      exact .started vacant room added observed

/-! ## Steps -/

structure Complete (machine : ChatStateMachine Schema) (reason : FinishReason) : Prop where
  content : machine.text ≠ .notStarted ∨ machine.refusal ≠ .notStarted ∨
    machine.tools.isEmpty = false
  tools : reason = .toolCalls ↔ machine.tools.isEmpty = false

inductive Step (library : WireLibrary Schema) (machine : ChatStateMachine Schema) :
    ChatStateMachine Schema → List AssistantEvent → Prop
  | openText {advanced : UInt32} (notStarted : machine.text = .notStarted)
      (added : checkedAddU32 machine.nextContentIndex 1 = some advanced) :
      Step library machine { machine with
        nextContentIndex := advanced
        text := .opened machine.nextContentIndex } [.textStart machine.nextContentIndex]
  | text {index : ContentIndex} {content : String} {terminal : StructuredTerminal Schema}
      (isOpen : machine.text = .opened index)
      (buffered : machine.terminal.pushAnswerText content = .ok terminal) :
      Step library machine { machine with terminal } [.textDelta index content]
  | closeText {index : ContentIndex} (isOpen : machine.text = .opened index) :
      Step library machine { machine with text := .closed } [.textEnd index]
  | openRefusal {advanced : UInt32} (notStarted : machine.refusal = .notStarted)
      (added : checkedAddU32 machine.nextContentIndex 1 = some advanced) :
      Step library machine { machine with
        nextContentIndex := advanced
        refusal := .opened machine.nextContentIndex } [.refusalStart machine.nextContentIndex]
  | refusal {index : ContentIndex} (isOpen : machine.refusal = .opened index)
      (content : String) : Step library machine machine [.refusalDelta index content]
  | closeRefusal {index : ContentIndex} (isOpen : machine.refusal = .opened index) :
      Step library machine { machine with refusal := .closed } [.refusalEnd index]
  | observe {wireIndex : WireToolIndex} {next : ChatStateMachine Schema}
      {events : List AssistantEvent} (unfinished : machine.finishReason = none)
      (observes : Observes machine wireIndex next events) : Step library machine next events
  | fragments {wireIndex : WireToolIndex} {delta : ToolCallDeltaWire}
      {compat : ToolArgumentsCompat} {tools : ToolCallAccumulator} {events : List AssistantEvent}
      (appended : appendFragments library machine.tools wireIndex delta
        compat = .ok (tools, events)) : Step library machine { machine with tools } events
  | endCall {wireIndex : WireToolIndex} {tools : ToolCallAccumulator} {event : AssistantEvent}
      (ended : finishCall library machine.tools wireIndex =
        .ok (tools, event)) : Step library machine { machine with tools } [event]
  | finish {reason : FinishReason} (complete : Complete machine reason) :
      Step library machine { machine with finishReason := some reason } []

inductive Steps (library : WireLibrary Schema) (machine : ChatStateMachine Schema) :
    ChatStateMachine Schema → List AssistantEvent → Prop
  | refl : Steps library machine machine []
  | tail {middle next : ChatStateMachine Schema} {first second : List AssistantEvent}
      (before : Steps library machine middle first) (step : Step library middle next second) :
      Steps library machine next (first ++ second)

theorem Step.single (step : Step library machine next events) :
    Steps library machine next events := Steps.refl.tail step

theorem Steps.trans {final : ChatStateMachine Schema} {later : List AssistantEvent}
    (before : Steps library machine next events) (after : Steps library next final later) :
    Steps library machine final (events ++ later) := by
  induction after with
  | refl =>
    rw [List.append_nil]
    exact before
  | tail _ step induction =>
    rw [← List.append_assoc]
    exact induction.tail step

/-! ## Deltas -/

theorem steps_startText (started : machine.startText = .ok (next, events)) :
    Steps library machine next events := by
  unfold startText at started
  split at started
  · next notStarted =>
      simp only [bind_eq_ok, Prod.exists, allocateContentIndex_eq_ok, Except.ok.injEq,
        Prod.mk.injEq] at started
      rcases started with ⟨_, _, ⟨advanced, added, rfl, rfl⟩, rfl, rfl⟩
      exact (Step.openText notStarted added).single
  · cases started
    exact .refl

theorem steps_pushText (pushed : machine.pushText content = .ok (next, events)) :
    Steps library machine next events := by
  simp only [pushText, bind_eq_ok, reject_eq_ok, exists_const, Prod.exists] at pushed
  rcases pushed with ⟨_, _, middle, _, starts, pushed⟩
  split at pushed
  · next isOpen =>
      simp only [bind_eq_ok, Except.ok.injEq, Prod.mk.injEq] at pushed
      rcases pushed with ⟨_, buffered, rfl, rfl⟩
      exact (steps_startText starts).tail (.text isOpen buffered)
  · cases pushed
  · cases pushed

theorem steps_startRefusal (started : machine.startRefusal = .ok (next, events)) :
    Steps library machine next events := by
  unfold startRefusal at started
  split at started
  · next notStarted =>
      simp only [bind_eq_ok, Prod.exists, allocateContentIndex_eq_ok, Except.ok.injEq,
        Prod.mk.injEq] at started
      rcases started with ⟨_, _, ⟨advanced, added, rfl, rfl⟩, rfl, rfl⟩
      exact (Step.openRefusal notStarted added).single
  · cases started
    exact .refl

theorem steps_pushRefusal (pushed : machine.pushRefusal content = .ok (next, events)) :
    Steps library machine next events := by
  simp only [pushRefusal, bind_eq_ok, reject_eq_ok, exists_const, Prod.exists] at pushed
  rcases pushed with ⟨_, _, _, middle, _, starts, pushed⟩
  split at pushed
  · next isOpen =>
      cases pushed
      exact (steps_startRefusal starts).tail (.refusal isOpen content)
  · cases pushed
  · cases pushed

theorem steps_pushNonEmpty {push : ChatStateMachine Schema → String →
      Except LlmError (Outcome Schema)} {fragment : Option String}
    (steps : ∀ content, push machine content = .ok (next, events) →
      Steps library machine next events)
    (pushed : machine.pushNonEmpty push fragment = .ok (next, events)) :
    Steps library machine next events := by
  unfold pushNonEmpty at pushed
  split at pushed
  · cases pushed
    exact .refl
  · split at pushed
    · cases pushed
      exact .refl
    · exact steps _ pushed

theorem steps_pushToolDeltas {deltas : List ToolCallDeltaWire}
    (pushed : pushToolDeltas library machine deltas = .ok (next, events)) :
    Steps library machine next events := by
  induction deltas generalizing machine events with
  | nil =>
    cases pushed
    exact .refl
  | cons delta rest induction =>
    simp only [pushToolDeltas, bind_eq_ok, Prod.exists, Except.ok.injEq, Prod.mk.injEq] at pushed
    rcases pushed with ⟨_, _, head, _, _, tail, rfl, rfl⟩
    rcases pushToolDelta_eq_ok head with
      ⟨unfinished, _, _, _, _, _, observes, appended, rfl, rfl⟩
    exact ((Step.observe unfinished observes).single.tail (.fragments appended)).trans
      (induction tail)

theorem steps_applyDelta {delta : DeltaWire}
    (applied : applyDelta library machine delta = .ok (next, events)) :
    Steps library machine next events := by
  simp only [applyDelta, bind_eq_ok, Prod.exists, Except.ok.injEq, Prod.mk.injEq] at applied
  rcases applied with ⟨_, _, text, _, _, refusal, _, _, tools, rfl, rfl⟩
  exact ((steps_pushNonEmpty (fun _ => steps_pushText) text).trans
    (steps_pushNonEmpty (fun _ => steps_pushRefusal) refusal)).trans (steps_pushToolDeltas tools)

/-! ## The finish reason -/

theorem steps_closeTextIfOpen (machine : ChatStateMachine Schema) :
    Steps library machine machine.closeTextIfOpen.1 machine.closeTextIfOpen.2 := by
  unfold closeTextIfOpen
  split
  · next isOpen => exact (Step.closeText isOpen).single
  · exact .refl
  · exact .refl

theorem steps_finishCalls {tools : ToolCallAccumulator} {order : List WireToolIndex}
    (ended : finishCalls library machine.tools order =
      .ok (tools, events)) :
    Steps library machine { machine with tools } events ∧ tools.order = machine.tools.order := by
  induction order generalizing machine events with
  | nil =>
    cases ended
    exact ⟨.refl, rfl⟩
  | cons wireIndex rest induction =>
    simp only [finishCalls, bind_eq_ok, Prod.exists, Except.ok.injEq, Prod.mk.injEq] at ended
    rcases ended with ⟨first, _, head, _, _, tail, rfl, rfl⟩
    have firstOrder : first.order = machine.tools.order := by
      simp only [finishCall, bind_eq_ok, Except.ok.injEq, Prod.mk.injEq] at head
      rcases head with ⟨_, _, _, _, _, _, rfl, _⟩
      rfl
    rcases @induction { machine with tools := first } _ tail with ⟨steps, order⟩
    exact ⟨(Step.endCall head).single.trans steps, order.trans firstOrder⟩

theorem steps_finishToolCalls (finished : finishToolCalls library machine = .ok (next, events)) :
    Steps library machine next events ∧ Complete next .toolCalls := by
  simp only [finishToolCalls, finishAll, bind_eq_ok, reject_eq_ok, exists_const, Prod.exists,
    Except.ok.injEq, Prod.mk.injEq, Bool.not_eq_true] at finished
  rcases finished with ⟨_, notEmpty, tools, _, ended, rfl, rfl⟩
  rcases steps_finishCalls ended with ⟨steps, order⟩
  have stillNotEmpty : tools.isEmpty = false := by rwa [isEmpty, order]
  exact ⟨(steps_closeTextIfOpen machine).trans steps, .inr (.inr stillNotEmpty),
    iff_of_true rfl stillNotEmpty⟩

theorem steps_emptyText (notStarted : machine.text = .notStarted)
    (finished : machine.emptyText = .ok (next, events)) :
    Steps library machine next events ∧ next.text = .closed ∧ next.tools = machine.tools := by
  simp only [emptyText, bind_eq_ok, Prod.exists,
    allocateContentIndex_eq_ok, Except.ok.injEq, Prod.mk.injEq] at finished
  rcases finished with ⟨_, _, ⟨advanced, added, rfl, rfl⟩, rfl, rfl⟩
  exact ⟨(Step.openText notStarted added).single.tail (.closeText rfl), rfl, rfl⟩

theorem steps_finishText {reason : FinishReason} (notTools : reason ≠ .toolCalls)
    (finished : machine.finishText = .ok (next, events)) :
    Steps library machine next events ∧ Complete next reason := by
  simp only [finishText, bind_eq_ok, reject_eq_ok, exists_const, Bool.not_eq_false] at finished
  rcases finished with ⟨empty, finished⟩
  have agrees : reason = .toolCalls ↔ machine.tools.isEmpty = false :=
    iff_of_false notTools (by simp [empty])
  split at finished
  · next refusal =>
      simp only [closeRefusal, refusal, Except.ok.injEq, Prod.mk.injEq] at finished
      rcases finished with ⟨rfl, rfl⟩
      exact ⟨(Step.closeRefusal refusal).single, .inr (.inl (by simp)), agrees⟩
  · next text =>
      simp only [closeTextIfOpen, text, Except.ok.injEq, Prod.mk.injEq] at finished
      rcases finished with ⟨rfl, rfl⟩
      exact ⟨(Step.closeText text).single, .inl (by simp), agrees⟩
  · next text =>
      simp only [closeTextIfOpen, text, Except.ok.injEq, Prod.mk.injEq] at finished
      rcases finished with ⟨rfl, rfl⟩
      exact ⟨(Step.closeText text).single, .inl (by simp), agrees⟩
  · next text =>
      rcases steps_emptyText text finished with ⟨steps, closed, sameTools⟩
      exact ⟨steps, .inl (by simp [closed]), sameTools ▸ agrees⟩
  · next text =>
      cases finished
      exact ⟨.refl, .inl (by simp [text]), agrees⟩
  · next refusal _ =>
      cases finished
      exact ⟨.refl, .inr (.inl (by simp [refusal])), agrees⟩
  · next text =>
      cases finished
      exact ⟨.refl, .inl (by simp [text]), agrees⟩

theorem steps_applyFinish {reason : FinishReason}
    (applied : applyFinish library machine reason = .ok (next, events)) :
    Steps library machine next events := by
  simp only [applyFinish, bind_eq_ok, reject_eq_ok, exists_const, Prod.exists,
    Except.ok.injEq, Prod.mk.injEq] at applied
  rcases applied with ⟨_, closed, emitted, blocksClosed, rfl, rfl⟩
  have closes : Steps library machine closed emitted ∧ Complete closed reason := by
    cases reason with
    | toolCalls => exact steps_finishToolCalls blocksClosed
    | stop | length => exact steps_finishText (by simp) blocksClosed
    | contentFilter => simp [closeBlocks] at blocksClosed
    | unknown => cases blocksClosed
  have finished := closes.1.tail (.finish closes.2)
  rwa [List.append_nil] at finished

theorem steps_elim {α : Type} {value : Option α} {step : α → Except LlmError (Outcome Schema)}
    (steps : ∀ found, step found = .ok (next, events) → Steps library machine next events)
    (stepped : value.elim (.ok (machine, [])) step = .ok (next, events)) :
    Steps library machine next events := by
  cases value with
  | none =>
    cases stepped
    exact .refl
  | some found => exact steps found stepped

theorem steps_applyChoice {choice : ChoiceWire} {finishReason : Option FinishReason}
    (applied : applyChoice library machine choice finishReason =
      .ok (next, events)) : Steps library machine next events := by
  simp only [applyChoice, bind_eq_ok, Prod.exists, Except.ok.injEq, Prod.mk.injEq] at applied
  rcases applied with ⟨_, _, delta, _, _, finish, rfl, rfl⟩
  exact (steps_elim (fun _ => steps_applyDelta) delta).trans
    (steps_elim (fun _ => steps_applyFinish) finish)

/-! ## One event -/

theorem observeIdentity_eq_ok {generationId responseModel : Option String}
    (observed : machine.observeIdentity generationId responseModel = .ok next) :
    ∃ id model, next = { machine with generationId := id, responseModel := model } := by
  simp only [observeIdentity, bind_eq_ok] at observed
  rcases observed with ⟨middle, idObserved, modelObserved⟩
  have first : ∃ id, middle = { machine with generationId := id } := by
    cases generationId with
    | none =>
      cases idObserved
      exact ⟨_, rfl⟩
    | some raw =>
      simp only [observeGenerationId, bind_eq_ok, Except.ok.injEq]
        at idObserved
      rcases idObserved with ⟨_, _, _, _, rfl⟩
      exact ⟨_, rfl⟩
  rcases first with ⟨id, rfl⟩
  cases responseModel with
  | none =>
    cases modelObserved
    exact ⟨_, _, rfl⟩
  | some model =>
    simp only [observeModel, bind_eq_ok, Except.ok.injEq] at modelObserved
    rcases modelObserved with ⟨_, _, _, _, rfl⟩
    exact ⟨_, _, rfl⟩

def IsReport (events : List AssistantEvent) (details : UsageDetails) : Prop :=
  events = [.detailedUsage details] ∨ ∃ usage, events = [.usage usage, .detailedUsage details]

theorem usageEvents_eq_ok {outcome : UsageMergeOutcome}
    (emitted : usageEvents outcome = .ok events) : match outcome.details? with
    | none => events = []
    | some details => IsReport events details := by
  cases outcome with
  | unchanged =>
    cases emitted
    rfl
  | emitDetailed details =>
    cases emitted
    exact .inl rfl
  | emitP1 details =>
    simp only [usageEvents, bind_eq_ok, Except.ok.injEq] at emitted
    rcases emitted with ⟨usage, _, rfl⟩
    exact .inr ⟨usage, rfl⟩

theorem applyUsage_eq_ok {usage : Option UsageDetails}
    (applied : machine.applyUsage usage = .ok (next, events)) :
    (∃ usageDetails, next = { machine with usageDetails }) ∧
      (events = [] ∨ ∃ details, IsReport events details) := by
  cases usage with
  | none =>
    cases applied
    exact ⟨⟨_, rfl⟩, .inl rfl⟩
  | some details =>
    simp only [applyUsage, bind_eq_ok, Prod.exists, Except.ok.injEq, Prod.mk.injEq] at applied
    rcases applied with ⟨_, outcome, _, _, emitted, rfl, rfl⟩
    have reported := usageEvents_eq_ok emitted
    refine ⟨⟨_, rfl⟩, ?_⟩
    cases emits : outcome.details? with
    | none => exact .inl (by rwa [emits] at reported)
    | some details => exact .inr ⟨details, by rwa [emits] at reported⟩

/-- An accepted event: the marker that ends the stream, or a chunk with its identity, its
start, its choice and its usage. -/
inductive Accepts (library : WireLibrary Schema) (machine : ChatStateMachine Schema)
    (event : SseEvent) : ChatStateMachine Schema → List AssistantEvent → Prop
  | marker {reason : FinishReason} {terminal : StructuredTerminal Schema}
      (isMarker : event.data = "[DONE]") (finishReason : machine.finishReason = some reason)
      (validated : machine.terminal.validateBeforeDone library.toJsonLibrary reason
        (!machine.tools.isEmpty) (decide (machine.refusal ≠ .notStarted)) = .ok terminal) :
      Accepts library machine event { machine with terminal, seenDone := true } []
  | chunk {chunk : ChatCompletionChunkWire} {prepared : PreparedChunk}
      {unknownFields : TreeSet String} {generationId : Option GenerationId}
      {responseModel : Option String} {observed chosen final : ChatStateMachine Schema}
      {choiceEvents usageEvents : List AssistantEvent}
      (notMarker : event.data ≠ "[DONE]") (parsed : library.chunk event.data = .ok chunk)
      (validated : PreparedChunk.validate chunk machine.finishReason
        machine.duplicateFinishSeen machine.responseCompat.finishReason
        machine.responseCompat.usage = .ok prepared)
      (identity : observed = { machine with unknownFields, generationId, responseModel })
      (choice : chunk.choices.head?.elim (.ok (observed.emitStart.1, [])) (fun choice =>
        applyChoice library observed.emitStart.1 choice
          prepared.finishReason) = .ok (chosen, choiceEvents))
      (usage : applyUsage { chosen with
          duplicateFinishSeen := chosen.duplicateFinishSeen || prepared.duplicateFinish }
        prepared.usage = .ok (final, usageEvents)) :
      Accepts library machine event final (observed.emitStart.2 ++ choiceEvents ++ usageEvents)

theorem accept_cases {event : SseEvent}
    (accepted : accept library machine event = .ok (next, events)) :
    machine.seenDone = false ∧ Accepts library machine event next events := by
  unfold accept at accepted
  split at accepted
  · split at accepted <;> cases accepted
  · next notSeen =>
      refine ⟨Bool.eq_false_iff.mpr notSeen, ?_⟩
      split at accepted
      · next isMarker =>
          simp only [acceptDoneMarker, bind_eq_ok, okOr_eq_ok, Except.ok.injEq,
            Prod.mk.injEq] at accepted
          rcases accepted with ⟨_, finishReason, _, _, _, validated, rfl, rfl⟩
          exact .marker isMarker finishReason validated
      · next notMarker =>
          simp only [acceptChunk, applyPrepared, bind_eq_ok,
            mapError_eq_ok, Prod.exists, Except.ok.injEq, Prod.mk.injEq] at accepted
          rcases accepted with ⟨chunk, parsed, _, _, _, _, prepared, validated, _, _, _,
            identity, _, _, choice, _, _, usage, rfl, rfl⟩
          rcases observeIdentity_eq_ok identity with ⟨_, _, same⟩
          exact .chunk notMarker parsed validated same choice usage

end Philo.OpenAiChat
