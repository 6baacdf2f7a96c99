import Philo.Domain.Collector
import Philo.Protocol.OpenAiChat.Steps

/-! The relation between the machine and a collector that has taken everything
the machine emitted. -/

namespace Philo.OpenAiChat

open Result Std Collector Function

variable {Schema : Type}

/-! ## Open blocks of the machine -/

inductive Slot where
  | text
  | refusal
  | tool (wireIndex : WireToolIndex)
  deriving DecidableEq

inductive OpenItem where
  | content (index : ContentIndex)
  | call (pending : PendingToolCall)

def OpenItem.index? : OpenItem → Option ContentIndex
  | content index => some index
  | call pending => some pending.domainContentIndex

def ContentBlockState.item? : ContentBlockState → Option OpenItem
  | opened index => some (.content index)
  | notStarted | closed => none

def PendingToolCall.item? (pending : PendingToolCall) : Option OpenItem :=
  if pending.ended = true then none else some (.call pending)

def itemsOf (text refusal : ContentBlockState)
    (pendings : TreeMap WireToolIndex PendingToolCall) : Slot → Option OpenItem
  | .text => text.item?
  | .refusal => refusal.item?
  | .tool wireIndex => (lookup pendings wireIndex).bind PendingToolCall.item?

def openItems (machine : ChatStateMachine Schema) : Slot → Option OpenItem :=
  itemsOf machine.text machine.refusal machine.tools.pendingByWireIndex

section Items

variable (text refusal : ContentBlockState)
  (pendings : TreeMap WireToolIndex PendingToolCall)

theorem itemsOf_text (changed : ContentBlockState) : itemsOf changed refusal pendings =
      update (itemsOf text refusal pendings) .text changed.item? := by
  funext slot
  cases slot <;> simp [itemsOf]

theorem itemsOf_refusal (changed : ContentBlockState) : itemsOf text changed pendings =
      update (itemsOf text refusal pendings) .refusal changed.item? := by
  funext slot
  cases slot <;> simp [itemsOf]

theorem itemsOf_insert (wireIndex : WireToolIndex) (pending : PendingToolCall) :
    itemsOf text refusal (pendings.insert wireIndex pending) =
      update (itemsOf text refusal pendings) (.tool wireIndex) pending.item? := by
  funext slot
  cases slot with
  | text | refusal => simp [itemsOf]
  | tool other =>
    simp only [itemsOf, lookup_insert]
    by_cases same : other = wireIndex
    · simp [same]
    · simp [same, itemsOf]

end Items

theorem openItems_tool_of_open {machine : ChatStateMachine Schema}
    {wireIndex : WireToolIndex} {pending : PendingToolCall}
    (found : lookup machine.tools.pendingByWireIndex wireIndex = some pending)
    (notEnded : pending.ended ≠ true) :
    openItems machine (.tool wireIndex) = some (.call pending) := by
  simp [openItems, itemsOf, found, PendingToolCall.item?, notEnded]

theorem openItems_eq_none {machine : ChatStateMachine Schema}
    (closed : machine.hasOpenBlocks = false) (slot : Slot) : openItems machine slot = none := by
  simp only [ChatStateMachine.hasOpenBlocks, Bool.or_eq_false_iff, ToolCallAccumulator.hasOpenCalls,
    List.any_eq_false, Bool.not_eq_true', Bool.not_eq_false, mem_values_iff] at closed
  rcases closed with ⟨⟨noText, noRefusal⟩, allEnded⟩
  cases slot with
  | text =>
    cases state : machine.text <;> simp [state] at noText
    all_goals simp [openItems, itemsOf, state, ContentBlockState.item?]
  | refusal =>
    cases state : machine.refusal <;> simp [state] at noRefusal
    all_goals simp [openItems, itemsOf, state, ContentBlockState.item?]
  | tool wireIndex =>
    cases found : lookup machine.tools.pendingByWireIndex wireIndex with
    | none => simp [openItems, itemsOf, found]
    | some pending =>
      have ended := allEnded pending ⟨wireIndex, found⟩
      simp [openItems, itemsOf, found, PendingToolCall.item?, ended]

/-! ## The relation -/

abbrev Announced := WireToolIndex → Option ToolCallId

def Represents (announced : Announced) : Slot → OpenItem → OpenBlock → Prop
  | .text, .content _, block => ∃ text, block = .text text
  | .refusal, .content _, block => ∃ text, block = .refusal text
  | .tool wireIndex, .call pending, block =>
    block = .toolCall wireIndex (announced wireIndex) pending.nameBuffer
      pending.argumentsBuffer
  | _, _, _ => False

theorem Represents.announce {announced : Announced} {wireIndex : WireToolIndex}
    (id : Option ToolCallId) {slot : Slot} {item : OpenItem} {block : OpenBlock}
    (different : slot ≠ .tool wireIndex) (represents : Represents announced slot item block) :
    Represents (update announced wireIndex id) slot item block := by
  cases slot with
  | text | refusal => cases item <;> exact represents
  | tool other =>
    have otherCall : other ≠ wireIndex := fun same => different (congrArg Slot.tool same)
    cases item with
    | content index => exact represents
    | call pending => simpa [Represents, otherCall] using represents

/-- The accumulator and the collector know the same calls. An id that the
collector holds belongs to a call that was announced with it or that ended. -/
structure ToolsFollow (announced : Announced) (tools : ToolCallAccumulator)
    (collector : Collector) : Prop where
  order : ∀ wireIndex, wireIndex ∈ tools.order ↔ wireIndex ∈ tools.pendingByWireIndex
  wireIndexes : ∀ wireIndex, wireIndex ∈ collector.toolWireIndexes ↔
    wireIndex ∈ tools.pendingByWireIndex
  registered : ∀ wireIndex pending id,
    lookup tools.pendingByWireIndex wireIndex = some pending →
      pending.providerCallId = some id → lookup tools.seenProviderCallIds id = some wireIndex
  kept : ∀ wireIndex pending id,
    lookup tools.pendingByWireIndex wireIndex = some pending →
      announced wireIndex = some id → pending.providerCallId = some id
  ids : ∀ id ∈ collector.toolCallIds, ∃ wireIndex pending,
    lookup tools.pendingByWireIndex wireIndex = some pending ∧
      pending.providerCallId = some id ∧
        (pending.ended = true ∨ announced wireIndex = some id)

structure Follows (announced : Announced) (machine : ChatStateMachine Schema)
    (collector : Collector) : Prop where
  sound : collector.Sound
  notDone : collector.done = false
  next : collector.nextContentIndex = machine.nextContentIndex
  linked : Linked OpenItem.index? (Represents announced) (openItems machine)
    (lookup collector.openBlocks)
  tools : ToolsFollow announced machine.tools collector
  content : machine.text ≠ .notStarted ∨ machine.refusal ≠ .notStarted ∨
    (∃ wireIndex, wireIndex ∈ machine.tools.pendingByWireIndex) →
      machine.nextContentIndex ≠ 0
  finished : ∀ reason, machine.finishReason = some reason →
    machine.nextContentIndex ≠ 0 ∧
      (reason = .toolCalls ↔ ∃ wireIndex, wireIndex ∈ machine.tools.pendingByWireIndex)

def machineAside (machine : ChatStateMachine Schema) :
    Bool × Option UsageDetails × UsageCompat :=
  (machine.started, machine.usageDetails, machine.responseCompat.usage)

def collectorAside (collector : Collector) : Bool × Option Usage × Option UsageDetails :=
  (collector.started, collector.usage, collector.usageDetails)

/-- The collector takes `events` and follows the machine into `next`; what both
keep besides their blocks stays. -/
def Carried (collector : Collector) (machine next : ChatStateMachine Schema)
    (events : List AssistantEvent) : Prop :=
  ∃ announced collected, consumer.acceptAll collector events = .ok collected ∧
    Follows announced next collected ∧ machineAside next = machineAside machine ∧
      collectorAside collected = collectorAside collector

theorem Carried.append {collector : Collector} {machine middle next : ChatStateMachine Schema}
    {first second : List AssistantEvent} (carried : Carried collector machine middle first)
    (onward : ∀ announced collected, Follows announced middle collected →
      Carried collected middle next second) :
    Carried collector machine next (first ++ second) := by
  rcases carried with ⟨announced, collected, accepted, follows, aside, collectedAside⟩
  rcases onward announced collected follows with
    ⟨announced', final, acceptedLater, followsLater, asideLater, finalAside⟩
  refine ⟨announced', final, ?_, followsLater, asideLater.trans aside,
    finalAside.trans collectedAside⟩
  rw [Consumer.acceptAll_append, accepted, ok_bind, acceptedLater]

namespace ToolsFollow

variable {announced : Announced} {tools : ToolCallAccumulator}
  {collector collected : Collector}

theorem congr (follows : ToolsFollow announced tools collector)
    (wireIndexes : collected.toolWireIndexes = collector.toolWireIndexes)
    (ids : collected.toolCallIds = collector.toolCallIds) :
    ToolsFollow announced tools collected where
  order := follows.order
  wireIndexes := by
    rw [wireIndexes]
    exact follows.wireIndexes
  registered := follows.registered
  kept := follows.kept
  ids := by
    rw [ids]
    exact follows.ids

theorem isEmpty_iff (follows : ToolsFollow announced tools collector) :
    tools.isEmpty = true ↔ ¬ ∃ wireIndex, wireIndex ∈ tools.pendingByWireIndex := by
  rw [ToolCallAccumulator.isEmpty, List.isEmpty_iff, List.eq_nil_iff_forall_not_mem, not_exists]
  exact forall_congr' fun wireIndex => not_congr (follows.order wireIndex)

end ToolsFollow

namespace Follows

variable {announced : Announced} {machine next : ChatStateMachine Schema}
  {collector : Collector}

theorem new (context : StreamContext) (format : ResponseFormat Schema)
    (limits : ResponseLimits) (compat : ResponseCompat) :
    Follows (fun _ => none) (ChatStateMachine.new context format limits compat) .fresh where
  sound := fresh_sound
  notDone := rfl
  next := rfl
  linked := by
    have nothingOpen : openItems (ChatStateMachine.new context format limits compat) =
        fun _ => none := by
      funext slot
      cases slot <;> simp [openItems, itemsOf, ChatStateMachine.new, ToolCallAccumulator.new,
        ContentBlockState.item?, lookup_empty]
    rw [nothingOpen]
    simp only [fresh, lookup_empty]
    exact Linked.empty
  tools := by
    constructor <;> simp [ChatStateMachine.new, ToolCallAccumulator.new, fresh,
      lookup_empty]
  content := by simp [ChatStateMachine.new, ToolCallAccumulator.new]
  finished := by simp [ChatStateMachine.new]

theorem accept_eq_apply (follows : Follows announced machine collector) (event : AssistantEvent) :
    consumer.accept collector event = collector.apply event :=
  accept_of_not_done follows.notDone event

theorem acceptAll_one (follows : Follows announced machine collector)
    {event : AssistantEvent} {collected : Collector}
    (applied : collector.apply event = .ok collected) :
    consumer.acceptAll collector [event] = .ok collected := by
  simp [follows.accept_eq_apply, applied]

theorem next_vacant (follows : Follows announced machine collector) :
    lookup collector.openBlocks machine.nextContentIndex = none := by
  rw [← follows.next]
  exact not_mem_iff_lookup.mp follows.sound.next_not_mem.1

theorem congr (follows : Follows announced machine collector)
    (text : next.text = machine.text) (refusal : next.refusal = machine.refusal)
    (tools : next.tools = machine.tools)
    (nextContentIndex : next.nextContentIndex = machine.nextContentIndex)
    (finishReason : next.finishReason = machine.finishReason) :
    Follows announced next collector where
  sound := follows.sound
  notDone := follows.notDone
  next := follows.next.trans nextContentIndex.symm
  linked := by
    rw [openItems, text, refusal, tools]
    exact follows.linked
  tools := tools ▸ follows.tools
  content := by
    rw [text, refusal, tools, nextContentIndex]
    exact follows.content
  finished := by
    rw [tools, nextContentIndex, finishReason]
    exact follows.finished

theorem carried_nil (follows : Follows announced next collector)
    (aside : machineAside next = machineAside machine) : Carried collector machine next [] :=
  ⟨announced, collector, rfl, follows, aside, rfl⟩

end Follows

end Philo.OpenAiChat
