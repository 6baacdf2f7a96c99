import Philo.Domain.Event
import Philo.Foundation.Table

/-! What every run of the collector keeps, and what each event does to a
collector that kept it. -/

namespace Philo

open Result Std Consumer OpenBlock

namespace OpenBlock

def wireIndex? : OpenBlock → Option WireToolIndex
  | toolCall wireIndex _ _ _ => some wireIndex
  | text _ | thinking _ _ | refusal _ => none

def isToolCall : OpenBlock → Bool
  | toolCall _ _ _ _ => true
  | text _ | thinking _ _ | refusal _ => false

theorem isToolCall_iff {block : OpenBlock} :
    block.isToolCall = true ↔ ∃ wireIndex, block.wireIndex? = some wireIndex := by
  cases block <;> simp [isToolCall, wireIndex?]

def extend : OpenBlock → AssistantEvent → Option OpenBlock
  | text before, .textDelta _ delta => some (.text (before ++ delta))
  | thinking before current, .thinkingDelta _ delta => some (.thinking (before ++ delta) current)
  | thinking before none, .thinkingOpaque _ opaqueState =>
    some (.thinking before (some opaqueState))
  | refusal before, .refusalDelta _ delta => some (.refusal (before ++ delta))
  | toolCall wireIndex id name arguments, .toolCallDelta _ given nameDelta argumentsDelta =>
    if wireIndex = given then
      some (.toolCall wireIndex id (name ++ nameDelta.getD "")
        (arguments ++ argumentsDelta.getD ""))
    else none
  | _, _ => none

def part? : OpenBlock → AssistantEvent → Option ContentPart
  | text whole, .textEnd _ => some (.text whole)
  | thinking whole current, .thinkingEnd _ => some (.thinking ⟨whole, current⟩)
  | refusal whole, .refusalEnd _ => some (.refusal whole)
  | _, _ => none

theorem isToolCall_of_extend {block block' : OpenBlock} {event : AssistantEvent}
    (extended : block.extend event = some block') : block'.isToolCall = block.isToolCall := by
  unfold extend at extended
  split at extended <;> try split at extended
  all_goals cases extended
  all_goals rfl

theorem isToolCall_of_part {block : OpenBlock} {event : AssistantEvent} {part : ContentPart}
    (isPart : block.part? event = some part) : part.isToolCall = block.isToolCall := by
  unfold part? at isPart
  split at isPart <;> cases isPart <;> rfl

end OpenBlock

namespace AssistantEvent

def extended? : AssistantEvent → Option ContentIndex
  | textDelta index _ | thinkingDelta index _ | thinkingOpaque index _ | refusalDelta index _
  | toolCallDelta index _ _ _ => some index
  | _ => none

def closed? : AssistantEvent → Option ContentIndex
  | textEnd index | thinkingEnd index | refusalEnd index => some index
  | _ => none

end AssistantEvent

namespace Collector

variable {collector next before after : Collector} {event : AssistantEvent}
  {index : ContentIndex} {advanced : UInt32} {block block' : OpenBlock} {part : ContentPart}
  {wireIndex : WireToolIndex} {id : Option ToolCallId} {call : ToolCall} {name arguments : String}

inductive BlockEffect (before after : Collector) : Prop
  | opened (block : OpenBlock)
      (advanced : checkedAddU32 before.nextContentIndex 1 = some after.nextContentIndex)
      (openBlocks :
        after.openBlocks = before.openBlocks.insert before.nextContentIndex block)
      (content : after.content = before.content)
      (wireIndexes : ∀ wireIndex, wireIndex ∈ after.toolWireIndexes ↔
        wireIndex ∈ before.toolWireIndexes ∨ block.wireIndex? = some wireIndex)
  | modified (index : ContentIndex) (block block' : OpenBlock)
      (next : after.nextContentIndex = before.nextContentIndex)
      (found : lookup before.openBlocks index = some block)
      (openBlocks : after.openBlocks = before.openBlocks.insert index block')
      (content : after.content = before.content)
      (sameKind : block'.isToolCall = block.isToolCall)
      (wireIndexes : after.toolWireIndexes = before.toolWireIndexes)
  | closed (index : ContentIndex) (block : OpenBlock) (part : ContentPart)
      (next : after.nextContentIndex = before.nextContentIndex)
      (found : lookup before.openBlocks index = some block)
      (openBlocks : after.openBlocks = before.openBlocks.erase index)
      (content : after.content = before.content.insert index part)
      (sameKind : part.isToolCall = block.isToolCall)
      (wireIndexes : after.toolWireIndexes = before.toolWireIndexes)
  | untouched
      (next : after.nextContentIndex = before.nextContentIndex)
      (openBlocks : after.openBlocks = before.openBlocks)
      (content : after.content = before.content)
      (wireIndexes : after.toolWireIndexes = before.toolWireIndexes)

theorem startBlock_eq_ok : collector.startBlock index block = .ok next ↔
      index = collector.nextContentIndex ∧ index ∉ collector.openBlocks ∧
        index ∉ collector.content ∧
          ∃ advanced, checkedAddU32 collector.nextContentIndex 1 = some advanced ∧
            { collector with
              nextContentIndex := advanced
              openBlocks := collector.openBlocks.insert index block } = next := by
  simp only [startBlock, bind_eq_ok, reject_eq_ok, okOr_eq_ok, Except.ok.injEq, not_or,
    ne_eq, not_not, exists_const, and_assoc]

theorem endBlock_eq_ok : collector.endBlock index part = .ok next ↔
      index ∉ collector.content ∧
        { collector with
          openBlocks := collector.openBlocks.erase index
          content := collector.content.insert index part } = next := by
  simp only [endBlock, bind_eq_ok, reject_eq_ok, Except.ok.injEq, exists_const]

theorem BlockEffect.of_startBlock (plain : block.wireIndex? = none)
    (started : collector.startBlock index block = .ok next) : BlockEffect collector next := by
  rcases startBlock_eq_ok.mp started with ⟨rfl, _, _, advanced, added, rfl⟩
  exact .opened block added rfl rfl (by simp [plain])

theorem apply_extended (isDelta : event.extended? = some index) :
    collector.apply event = .ok next ↔
      ∃ block block', lookup collector.openBlocks index = some block ∧
        block.extend event = some block' ∧ collector.setOpen index block' = next := by
  cases event <;> cases isDelta <;>
    rcases found : collector.openBlocks[index]? with _ | _ | ⟨_, _ | _⟩ | _ | _ <;>
    simp [apply, acceptToolCallDelta, lookup, found, extend]

theorem apply_closed (closes : event.closed? = some index) : collector.apply event = .ok next ↔
      ∃ block part, lookup collector.openBlocks index = some block ∧
        block.part? event = some part ∧ collector.endBlock index part = .ok next := by
  cases event <;> cases closes <;>
    rcases found : collector.openBlocks[index]? with _ | _ | _ | _ | _ <;>
    simp [apply, lookup, found, part?]

theorem acceptToolCallStart_eq_ok : collector.acceptToolCallStart index wireIndex id = .ok next ↔
      wireIndex ∉ collector.toolWireIndexes ∧
        (∀ known ∈ id, known ∉ collector.toolCallIds) ∧
          startBlock
            { collector with
              toolWireIndexes := collector.toolWireIndexes.insert wireIndex
              toolCallIds := id.elim collector.toolCallIds collector.toolCallIds.insert }
            index (.toolCall wireIndex id "" "") = .ok next := by
  simp only [acceptToolCallStart, bind_eq_ok, reject_eq_ok, exists_const, not_exists, not_and]

theorem BlockEffect.of_toolCallStart
    (accepted : collector.acceptToolCallStart index wireIndex id = .ok next) :
    BlockEffect collector next := by
  rcases acceptToolCallStart_eq_ok.mp accepted with ⟨_, _, started⟩
  rcases startBlock_eq_ok.mp started with ⟨rfl, _, _, advanced, added, rfl⟩
  exact .opened _ added rfl rfl (by
    intro other
    rw [mem_set_insert_iff, wireIndex?, Option.some.injEq, eq_comm])

theorem BlockEffect.of_toolCallEnd (accepted : collector.acceptToolCallEnd index call = .ok next) :
    BlockEffect collector next := by
  unfold acceptToolCallEnd at accepted
  split at accepted
  · next found =>
      simp only [bind_eq_ok, reject_eq_ok, exists_const, endBlock_eq_ok] at accepted
      rcases accepted with ⟨_, _, _, _, _, rfl⟩
      exact .closed index _ _ rfl found rfl rfl rfl rfl
  · cases accepted

theorem apply_usage_eq_ok {usage : Usage} : collector.apply (.usage usage) = .ok next ↔
      (∀ previous, collector.usage = some previous → previous = usage) ∧
        { collector with usage := some usage } = next := by
  rcases collector with ⟨_, _, _, _, _, _, _, _ | previous, _, _, _, _, _⟩ <;> simp [apply]
  rintro rfl
  rfl

theorem apply_detailedUsage_eq_ok {details : UsageDetails} :
    collector.apply (.detailedUsage details) = .ok next ↔
      (∀ previous, collector.usageDetails = some previous → previous = details) ∧
        { collector with usageDetails := some details } = next := by
  rcases collector with ⟨_, _, _, _, _, _, _, _, _ | previous, _, _, _, _⟩ <;> simp [apply]
  rintro rfl
  rfl

theorem apply_effect
    (accepted : collector.apply event = .ok next) : BlockEffect collector next := by
  cases event with
  | start =>
    simp only [apply, acceptStart, bind_eq_ok, reject_eq_ok, exists_const,
      Except.ok.injEq] at accepted
    rcases accepted with ⟨_, rfl⟩
    exact .untouched rfl rfl rfl rfl
  | textStart | thinkingStart | refusalStart => exact .of_startBlock rfl accepted
  | textDelta | thinkingDelta | thinkingOpaque | refusalDelta | toolCallDelta =>
    rcases (apply_extended rfl).mp accepted with ⟨block, block', found, extended, rfl⟩
    exact .modified _ block block' rfl found rfl rfl (isToolCall_of_extend extended) rfl
  | textEnd | thinkingEnd | refusalEnd =>
    rcases (apply_closed rfl).mp accepted with ⟨block, part, found, isPart, ended⟩
    rcases endBlock_eq_ok.mp ended with ⟨_, rfl⟩
    exact .closed _ block part rfl found rfl rfl (isToolCall_of_part isPart) rfl
  | toolCallStart => exact .of_toolCallStart accepted
  | toolCallEnd => exact .of_toolCallEnd accepted
  | usage =>
    rcases apply_usage_eq_ok.mp accepted with ⟨_, rfl⟩
    exact .untouched rfl rfl rfl rfl
  | detailedUsage =>
    rcases apply_detailedUsage_eq_ok.mp accepted with ⟨_, rfl⟩
    exact .untouched rfl rfl rfl rfl
  | done =>
    simp only [apply, acceptDone, bind_eq_ok, reject_eq_ok, exists_const,
      Except.ok.injEq] at accepted
    rcases accepted with ⟨_, _, _, rfl⟩
    exact .untouched rfl rfl rfl rfl

theorem accept_eq_ok : collector.accept event = .ok next ↔
      collector.done = false ∧ collector.apply event = .ok next := by
  simp only [accept, bind_eq_ok, reject_eq_ok, exists_const, Bool.not_eq_true]

theorem accept_of_not_done (notDone : collector.done = false)
    (event : AssistantEvent) : collector.accept event = collector.apply event := by
  simp [accept, reject, notDone]

/-! ## The invariant -/

def HoldsTool (collector : Collector) : Prop :=
  (∃ index block, lookup collector.openBlocks index = some block ∧
      block.isToolCall = true) ∨
    ∃ index part, lookup collector.content index = some part ∧ part.isToolCall = true

/-- Blocks occupy an initial segment of the indexes, each of them once, and a
wire index was recorded exactly when there is a tool call. -/
structure Sound (collector : Collector) : Prop where
  contiguous : ∀ index, index ∈ collector.openBlocks ∨ index ∈ collector.content ↔
    index.toNat < collector.nextContentIndex.toNat
  disjoint : ∀ index, index ∈ collector.openBlocks → index ∉ collector.content
  tools : (∃ wireIndex, wireIndex ∈ collector.toolWireIndexes) ↔ collector.HoldsTool

theorem fresh_sound : fresh.Sound where
  contiguous := by simp [fresh]
  disjoint := by simp [fresh]
  tools := by simp [fresh, HoldsTool, lookup_empty]

theorem Sound.next_not_mem (sound : collector.Sound) :
    collector.nextContentIndex ∉ collector.openBlocks ∧
      collector.nextContentIndex ∉ collector.content := by
  have absent := (sound.contiguous collector.nextContentIndex).not.mpr (Nat.lt_irrefl _)
  exact not_or.mp absent

private theorem toNat_lt_succ_iff {index next : UInt32}
    (added : checkedAddU32 next 1 = some advanced) :
    index.toNat < advanced.toNat ↔ index = next ∨ index.toNat < next.toNat := by
  have sum : advanced.toNat = next.toNat + 1 := checkedAddU32_eq_some added
  rw [sum, Nat.lt_succ_iff_lt_or_eq, UInt32.toNat_inj, or_comm]

theorem holdsTool_iff : collector.HoldsTool ↔
      Holds (fun block => block.isToolCall = true) (lookup collector.openBlocks) ∨
        Holds (fun part => part.isToolCall = true) (lookup collector.content) :=
  Iff.rfl

theorem holdsTool_opened (vacant : lookup before.openBlocks before.nextContentIndex = none)
    (openBlocks :
      after.openBlocks = before.openBlocks.insert before.nextContentIndex block)
    (content : after.content = before.content) :
    after.HoldsTool ↔ before.HoldsTool ∨ block.isToolCall = true := by
  rw [holdsTool_iff, holdsTool_iff, openBlocks, content, lookup_insert, holds_update,
    update_none_of_vacant vacant, or_right_comm]

theorem holdsTool_modified (found : lookup before.openBlocks index = some block)
    (openBlocks : after.openBlocks = before.openBlocks.insert index block')
    (content : after.content = before.content) (sameKind : block'.isToolCall = block.isToolCall) :
    after.HoldsTool ↔ before.HoldsTool := by
  rw [holdsTool_iff, holdsTool_iff, openBlocks, content, lookup_insert, holds_update,
    holds_iff _ (lookup before.openBlocks) index, found, sameKind]
  simp

theorem holdsTool_closed (found : lookup before.openBlocks index = some block)
    (vacant : lookup before.content index = none)
    (openBlocks : after.openBlocks = before.openBlocks.erase index)
    (content : after.content = before.content.insert index part)
    (sameKind : part.isToolCall = block.isToolCall) : after.HoldsTool ↔ before.HoldsTool := by
  rw [holdsTool_iff, holdsTool_iff, openBlocks, content, lookup_insert, lookup_erase, holds_update,
    update_none_of_vacant vacant, holds_iff _ (lookup before.openBlocks) index, found, sameKind]
  simp [or_comm, or_left_comm, or_assoc]

theorem BlockEffect.sound (effect : BlockEffect before after)
    (sound : before.Sound) : after.Sound := by
  cases effect with
  | opened block advanced openBlocks content wireIndexes =>
    have absent := sound.next_not_mem
    refine ⟨?_, ?_, ?_⟩
    · intro index
      rw [toNat_lt_succ_iff advanced, ← sound.contiguous index, openBlocks, content,
        mem_insert_iff, or_assoc]
    · intro index member
      rw [openBlocks, mem_insert_iff] at member
      rw [content]
      rcases member with rfl | member
      · exact absent.2
      · exact sound.disjoint index member
    · rw [holdsTool_opened (not_mem_iff_lookup.mp absent.1) openBlocks content,
        ← sound.tools, isToolCall_iff, ← exists_or]
      exact exists_congr wireIndexes
  | modified index block block' next found openBlocks content sameKind wireIndexes =>
    refine ⟨?_, ?_, ?_⟩
    · intro other
      rw [openBlocks, mem_insert_found found, content, next]
      exact sound.contiguous other
    · intro other member
      rw [openBlocks, mem_insert_found found] at member
      rw [content]
      exact sound.disjoint other member
    · rw [holdsTool_modified found openBlocks content sameKind, wireIndexes]
      exact sound.tools
  | closed index block part next found openBlocks content sameKind wireIndexes =>
    have held : index ∈ before.openBlocks := mem_iff_lookup.mpr ⟨block, found⟩
    have vacant := sound.disjoint index held
    refine ⟨?_, ?_, ?_⟩
    · intro other
      rw [next, ← sound.contiguous other, openBlocks, content, mem_insert_iff, mem_erase_iff]
      by_cases same : other = index
      · subst other
        simp [held]
      · simp [same]
    · intro other member
      rw [openBlocks, mem_erase_iff] at member
      rw [content, mem_insert_iff, not_or]
      exact ⟨member.1, sound.disjoint other member.2⟩
    · rw [holdsTool_closed found (not_mem_iff_lookup.mp vacant) openBlocks content
        sameKind, wireIndexes]
      exact sound.tools
  | untouched next openBlocks content wireIndexes =>
    refine ⟨?_, ?_, ?_⟩
    · intro index
      rw [openBlocks, content, next]
      exact sound.contiguous index
    · intro index member
      rw [content]
      exact sound.disjoint index (openBlocks ▸ member)
    · rw [wireIndexes, HoldsTool, openBlocks, content]
      exact sound.tools

theorem accept_sound (sound : collector.Sound) (accepted : collector.accept event = .ok next) :
    next.Sound :=
  (apply_effect (accept_eq_ok.mp accepted).2).sound sound

theorem Sound.startBlock (sound : collector.Sound)
    {advanced : UInt32} (added : checkedAddU32 collector.nextContentIndex 1 = some advanced)
    (block : OpenBlock) :
    collector.startBlock collector.nextContentIndex block = .ok { collector with
      nextContentIndex := advanced
      openBlocks := collector.openBlocks.insert collector.nextContentIndex block } :=
  startBlock_eq_ok.mpr
    ⟨rfl, sound.next_not_mem.1, sound.next_not_mem.2, advanced, added, rfl⟩

def close (collector : Collector) (index : ContentIndex) (part : ContentPart) : Collector :=
  { collector with
    openBlocks := collector.openBlocks.erase index
    content := collector.content.insert index part }

theorem Sound.endBlock (sound : collector.Sound) {index : ContentIndex} {block : OpenBlock}
    (found : lookup collector.openBlocks index = some block) (part : ContentPart) :
    collector.endBlock index part = .ok (collector.close index part) :=
  endBlock_eq_ok.mpr ⟨sound.disjoint index (mem_iff_lookup.mpr ⟨block, found⟩), rfl⟩

theorem acceptAll_extended {events : List AssistantEvent} (notDone : collector.done = false)
    (found : lookup collector.openBlocks index = some block)
    (areDeltas : ∀ event ∈ events, event.extended? = some index)
    (extended : events.foldlM extend block = some block') :
    ∃ openBlocks, consumer.acceptAll collector events = .ok { collector with openBlocks } ∧
      lookup openBlocks =
        Function.update (lookup collector.openBlocks) index (some block') := by
  induction events generalizing collector block with
  | nil =>
    cases extended
    exact ⟨collector.openBlocks, rfl, (Function.update_eq_self_iff.mpr found.symm).symm⟩
  | cons event rest induction =>
    rw [List.forall_mem_cons] at areDeltas
    rcases Option.bind_eq_some_iff.mp extended with ⟨grown, first, later⟩
    have accepted : consumer.accept collector event = .ok (collector.setOpen index grown) :=
      (accept_of_not_done notDone event).trans
        ((apply_extended areDeltas.1).mpr ⟨block, grown, found, first, rfl⟩)
    have grownAt : lookup (collector.setOpen index grown).openBlocks index = some grown := by
      simp [setOpen, lookup_insert]
    rcases @induction (collector.setOpen index grown) grown notDone grownAt areDeltas.2 later
      with ⟨openBlocks, followed, openAt⟩
    refine ⟨openBlocks, by rw [acceptAll_cons, accepted, ok_bind, followed]; rfl, ?_⟩
    simpa [setOpen, lookup_insert] using openAt

/-! ## Accepting one event -/

section Apply

theorem apply_textStart (index : ContentIndex) :
    collector.apply (.textStart index) = collector.startBlock index (.text "") := rfl

theorem apply_thinkingStart (index : ContentIndex) : collector.apply (.thinkingStart index) =
      collector.startBlock index (.thinking "" none) := rfl

theorem apply_refusalStart (index : ContentIndex) :
    collector.apply (.refusalStart index) = collector.startBlock index (.refusal "") := rfl

theorem apply_end {part : ContentPart} (sound : collector.Sound)
    (closes : event.closed? = some index) (found : lookup collector.openBlocks index = some block)
    (isPart : block.part? event = some part) :
    collector.apply event = .ok (collector.close index part) :=
  (apply_closed closes).mpr ⟨block, part, found, isPart, sound.endBlock found part⟩

/-- The ids after the end of a tool call: a call that was not announced with an
id registers it now. -/
def idsAfterEnd (collector : Collector) (announced : Option ToolCallId) (id : ToolCallId) :
    TreeSet ToolCallId :=
  announced.elim (collector.toolCallIds.insert id) fun _ => collector.toolCallIds

theorem apply_toolCallEnd {announced : Option ToolCallId} (sound : collector.Sound)
    (found : lookup collector.openBlocks index =
      some (.toolCall wireIndex announced call.name.value arguments))
    (sameId : ∀ known ∈ announced, known = call.id)
    (newId : announced = none → call.id ∉ collector.toolCallIds)
    (sameArguments : arguments = call.arguments.rawJson) :
    collector.apply (.toolCallEnd index call) =
      .ok (close { collector with toolCallIds := collector.idsAfterEnd announced call.id }
        index (.toolCall call)) := by
  have vacant := sound.disjoint index (mem_iff_lookup.mpr ⟨_, found⟩)
  have kept : ¬ ∃ known ∈ announced, known ≠ call.id := by
    rintro ⟨known, isAnnounced, changed⟩
    exact changed (sameId known isAnnounced)
  have unused : ¬ (announced = none ∧ call.id ∈ collector.toolCallIds) := by
    rintro ⟨unannounced, used⟩
    exact newId unannounced used
  simp only [lookup] at found
  simp only [apply, acceptToolCallEnd, found, reject, if_neg kept, if_neg unused, ok_bind,
    ne_eq, not_true_eq_false, ↓reduceIte, sameArguments]
  exact endBlock_eq_ok.mpr ⟨vacant, rfl⟩

theorem apply_toolCallEnd_announced (sound : collector.Sound)
    (found : lookup collector.openBlocks index =
      some (.toolCall wireIndex (some call.id) call.name.value arguments))
    (sameArguments : arguments = call.arguments.rawJson) :
    collector.apply (.toolCallEnd index call) =
      .ok (collector.close index (.toolCall call)) := by
  have ended := apply_toolCallEnd sound found (by simp) (by simp) sameArguments
  exact ended

theorem apply_toolCallEnd_refused (found : lookup collector.openBlocks index =
      some (.toolCall wireIndex id name arguments))
    (changed : arguments ≠ call.arguments.rawJson) :
    ¬ Succeeds (collector.apply (.toolCallEnd index call)) := by
  rintro ⟨next, accepted⟩
  simp only [lookup] at found
  simp only [apply, acceptToolCallEnd, found, bind_eq_ok, reject_eq_ok] at accepted
  rcases accepted with ⟨_, _, _, _, _, _, _, same, _⟩
  exact same changed

end Apply

theorem Sound.acceptAll_start {start : AssistantEvent} {events : List AssistantEvent}
    (sound : collector.Sound) (notDone : collector.done = false)
    (added : checkedAddU32 collector.nextContentIndex 1 = some advanced)
    (starts : collector.apply start =
      collector.startBlock collector.nextContentIndex block)
    (areDeltas : ∀ event ∈ events, event.extended? = some collector.nextContentIndex)
    (extended : events.foldlM extend block = some block') : ∃ openBlocks,
      consumer.acceptAll collector (start :: events) =
          .ok { collector with nextContentIndex := advanced, openBlocks } ∧
        lookup openBlocks = Function.update (lookup collector.openBlocks)
            collector.nextContentIndex (some block') := by
  have first : consumer.accept collector start = .ok { collector with
      nextContentIndex := advanced
      openBlocks := collector.openBlocks.insert collector.nextContentIndex block } := by
    refine (accept_of_not_done notDone start).trans ?_
    rw [starts]
    exact sound.startBlock added block
  rcases @acceptAll_extended { collector with
      nextContentIndex := advanced
      openBlocks := collector.openBlocks.insert collector.nextContentIndex block } _ _ _ _ notDone
    (by simp [lookup_insert]) areDeltas extended with ⟨openBlocks, accepted, openAt⟩
  refine ⟨openBlocks, by rw [acceptAll_cons, first, ok_bind, accepted], ?_⟩
  simpa [lookup_insert] using openAt

theorem acceptAll_sound {final : Collector} {events : List AssistantEvent}
    (sound : collector.Sound) (accepted : consumer.acceptAll collector events = .ok final) :
    final.Sound :=
  @acceptAll_history _ _ _ _ consumer (fun _ => Sound) accept_sound [] _ _ _ sound accepted

theorem Sound.acceptAll_end {deltas : List AssistantEvent} (sound : collector.Sound)
    (notDone : collector.done = false) (found : lookup collector.openBlocks index = some block)
    (areDeltas : ∀ event ∈ deltas, event.extended? = some index)
    (extended : deltas.foldlM extend block = some block')
    (closes : event.closed? = some index) (isPart : block'.part? event = some part) :
    ∃ openBlocks content,
      consumer.acceptAll collector (deltas ++ [event]) =
          .ok { collector with openBlocks, content } ∧
        lookup openBlocks = Function.update (lookup collector.openBlocks) index none := by
  rcases acceptAll_extended notDone found areDeltas extended with ⟨grown, accepted, openAt⟩
  have ended := (@accept_of_not_done { collector with openBlocks := grown } notDone event).trans
    (apply_end (acceptAll_sound sound accepted) closes (by simp [openAt]) isPart)
  refine ⟨grown.erase index, collector.content.insert index part, ?_, ?_⟩
  · rw [acceptAll_append, accepted, ok_bind, acceptAll_cons]
    exact congrArg (· >>= _) ended
  · rw [lookup_erase, openAt, Function.update_idem]

/-! ## The end of the stream -/

theorem hasToolCall_iff : collector.hasToolCall = true ↔
      ∃ index part, lookup collector.content index = some part ∧
        part.isToolCall = true := by
  simp only [hasToolCall, List.any_eq_true, parts, mem_values_iff]
  constructor
  · rintro ⟨part, ⟨index, found⟩, isTool⟩
    exact ⟨index, part, found, isTool⟩
  · rintro ⟨index, part, found, isTool⟩
    exact ⟨part, ⟨index, found⟩, isTool⟩

theorem Sound.content_isEmpty_iff (sound : collector.Sound)
    (closed : ∀ index, lookup collector.openBlocks index = none) :
    collector.content.isEmpty = true ↔ collector.nextContentIndex = 0 := by
  have present : ∀ index, index ∈ collector.content ↔
      index.toNat < collector.nextContentIndex.toNat := by
    intro index
    have absent := not_mem_iff_lookup.mpr (closed index)
    rw [← sound.contiguous index, or_iff_right absent]
  rw [TreeMap.isEmpty_iff_forall_not_mem]
  constructor
  · intro empty
    have notFirst := empty 0
    rw [present] at notFirst
    apply UInt32.toNat_inj.mp
    simpa using notFirst
  · intro zero index member
    rw [present, zero] at member
    exact Nat.not_lt_zero _ member

theorem Sound.hasToolCall_iff (sound : collector.Sound)
    (closed : ∀ index, lookup collector.openBlocks index = none) :
    collector.hasToolCall = true ↔ ∃ wireIndex, wireIndex ∈ collector.toolWireIndexes := by
  rw [sound.tools, Collector.hasToolCall_iff, HoldsTool]
  simp [closed]

/-- With no block open, `Done` ends the message if and only if there was a block
and the finish reason tells whether there was a tool call. -/
theorem Sound.succeeds_collect_done_iff (sound : collector.Sound)
    (notDone : collector.done = false)
    (closed : ∀ index, lookup collector.openBlocks index = none) (reason : FinishReason) :
    Succeeds (consumer.collect collector [.done reason]) ↔
      collector.nextContentIndex ≠ 0 ∧
        (reason = .toolCalls ↔ ∃ wireIndex, wireIndex ∈ collector.toolWireIndexes) := by
  have accepted : consumer.accept collector (.done reason) = collector.acceptDone reason :=
    accept_of_not_done notDone _
  have noOpen : collector.openBlocks.isEmpty = true := isEmpty_iff_lookup.mpr closed
  have agree : decide (reason = .toolCalls) = collector.hasToolCall ↔
      (reason = .toolCalls ↔ ∃ wireIndex, wireIndex ∈ collector.toolWireIndexes) := by
    rw [← sound.hasToolCall_iff closed, Bool.eq_iff_iff, decide_eq_true_iff]
  rw [ne_eq, ← sound.content_isEmpty_iff closed, ← agree]
  constructor
  · rintro ⟨message, collected⟩
    simp only [collect, acceptAll_cons, acceptAll_nil, accepted,
      acceptDone, bind_eq_ok, reject_eq_ok, ne_eq, not_not] at collected
    rcases collected with ⟨_, ⟨_, ⟨_, _, _, notEmpty, _, same, _⟩, _⟩, _⟩
    exact ⟨notEmpty, same⟩
  · rintro ⟨notEmpty, same⟩
    let ended : Collector := { collector with done := true, finishReason := some reason }
    have last : collector.acceptDone reason = .ok ended := by
      simp [acceptDone, reject, noOpen, notEmpty, same, ended]
    have finished : Succeeds (consumer.finish ended) := ⟨_, rfl⟩
    simpa [collect, accepted, last] using finished

end Collector

end Philo
