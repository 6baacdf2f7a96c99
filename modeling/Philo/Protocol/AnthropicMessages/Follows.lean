import Philo.Domain.Collector
import Philo.Protocol.AnthropicMessages.Collectable
import Philo.Protocol.AnthropicMessages.Steps

/-! The relation between the machine and a collector that has taken everything
the machine emitted. -/

namespace Philo.AnthropicMessages

open Result Std Collector

variable {Schema : Type}

namespace BlockState

def index? : BlockState → Option ContentIndex
  | text index | toolUse index _ _ _ | thinking index _ | redacted index _ => some index
  | unsupported => none

def arguments? : BlockState → Option String
  | toolUse _ _ _ arguments => some arguments
  | text _ | thinking _ _ | redacted _ _ | unsupported => none

end BlockState

def Represents (wireIndex : UInt32) (state : BlockState) (block : OpenBlock) : Prop :=
  match state with
  | .text _ => ∃ text, block = .text text
  | .toolUse _ id name arguments => block = .toolCall wireIndex (some id) name.value arguments
  | .thinking _ _ | .redacted _ _ => ∃ text, block = .thinking text none
  | .unsupported => False

def InPhase (machine : MessagesStateMachine Schema) (collector : Collector) : Prop :=
  match machine.phase with
  | .awaitMessageStart =>
    collector.started = false ∧ machine.nextContentIndex = 0 ∧
      collector.usageDetails = none ∧ machine.finishReason = none
  | .streamingMessage => collector.usageDetails = none ∧ machine.finishReason = none
  | .awaitMessageStop | .terminal =>
    (∀ wireIndex, lookup machine.blocks wireIndex = none) ∧
      (machine.finishReason = some .toolCalls → 0 < machine.toolCalls)

structure Follows (machine : MessagesStateMachine Schema) (collector : Collector) : Prop where
  sound : collector.Sound
  notDone : collector.done = false
  next : collector.nextContentIndex = machine.nextContentIndex
  linked : Linked BlockState.index? Represents (lookup machine.blocks)
    (lookup collector.openBlocks)
  tools : 0 < machine.toolCalls ↔ ∃ wireIndex, wireIndex ∈ collector.toolWireIndexes
  phase : InPhase machine collector

def progress (machine : MessagesStateMachine Schema) (collector : Collector) : Progress where
  usedWireIndex wireIndex := wireIndex ∈ collector.toolWireIndexes
  usedId value := ∃ id ∈ collector.toolCallIds, id.value = value
  pending wireIndex := (lookup machine.blocks wireIndex).bind BlockState.arguments?
  hasContent := machine.nextContentIndex ≠ 0
  hasTools := 0 < machine.toolCalls
  stopped := machine.finishReason

/-- The collector takes `events`, follows the machine into `next`, and the
progress made is `reached`. -/
def Carried (collector : Collector) (next : MessagesStateMachine Schema)
    (events : List AssistantEvent) (reached : Progress) : Prop :=
  ∃ collected, consumer.acceptAll collector events = .ok collected ∧
    Follows next collected ∧ progress next collected = reached

namespace Follows

variable {machine : MessagesStateMachine Schema} {collector : Collector}

theorem new (context : StreamContext) (format : ResponseFormat Schema)
    (limits : ResponseLimits) (compat : UsageCompat) :
    Follows (MessagesStateMachine.new context format limits compat) .fresh where
  sound := fresh_sound
  notDone := rfl
  next := rfl
  linked := by
    simp only [MessagesStateMachine.new, fresh, lookup_empty]
    exact Linked.empty
  tools := by simp [MessagesStateMachine.new, fresh]
  phase := ⟨rfl, rfl, rfl, rfl⟩

theorem progress_new (context : StreamContext) (format : ResponseFormat Schema)
    (limits : ResponseLimits) (compat : UsageCompat) :
    progress (MessagesStateMachine.new context format limits compat) .fresh = .initial := by
  simp [progress, MessagesStateMachine.new, fresh, lookup_empty, Progress.initial]

theorem streaming (follows : Follows machine collector)
    (phase : machine.phase = .streamingMessage) :
    collector.usageDetails = none ∧ machine.finishReason = none := by
  simpa [InPhase, phase] using follows.phase

theorem accept_eq_apply (follows : Follows machine collector) (event : AssistantEvent) :
    consumer.accept collector event = collector.apply event :=
  accept_of_not_done follows.notDone event

theorem next_vacant (follows : Follows machine collector) :
    lookup collector.openBlocks machine.nextContentIndex = none := by
  rw [← follows.next]
  exact not_mem_iff_lookup.mp follows.sound.next_not_mem.1

end Follows

/-! ## The message start -/

theorem carried_started {machine : MessagesStateMachine Schema} {collector : Collector}
    {usage : UsageWire} {generationId : GenerationId} {eventsSeen : Nat}
    (follows : Follows machine collector) (awaiting : machine.phase = .awaitMessageStart) :
    Carried collector
      { machine with
        generationId := some generationId
        usageSnapshot := some usage
        phase := .streamingMessage
        eventsSeen }
      [.start machine.context.localRequestId machine.context.providerRequestId
        (some generationId)]
      (progress machine collector) := by
  have waiting : collector.started = false ∧ machine.nextContentIndex = 0 ∧
      collector.usageDetails = none ∧ machine.finishReason = none := by
    simpa [InPhase, awaiting] using follows.phase
  refine ⟨{ collector with
    started := true
    localRequestId := some machine.context.localRequestId
    providerRequestId := machine.context.providerRequestId
    generationId := some generationId }, ?_, ?_, ?_⟩
  · simp [Consumer.acceptAll_cons, follows.accept_eq_apply, apply,
      acceptStart, reject, waiting.1, follows.next, waiting.2.1]
  · exact ⟨⟨follows.sound.contiguous, follows.sound.disjoint, follows.sound.tools⟩,
      follows.notDone, follows.next, follows.linked, follows.tools,
      ⟨waiting.2.2.1, waiting.2.2.2⟩⟩
  · rfl

end Philo.AnthropicMessages
