import Philo.Domain.CollectorBlocks

/-! How a collector stands for the events that it accepted, and when an event fits. -/

namespace Philo

open Result Std KeyedText Collector List

/-! ## Tool calls and single marks -/

structure DescribesTools (seen : List AssistantEvent) (collector : Collector) : Prop where
  wireIndexes : ∀ wireIndex, wireIndex ∈ collector.toolWireIndexes ↔
    ∃ index id, (index, .toolCall wireIndex id) ∈ startsOf seen
  ids : ∀ id, id ∈ collector.toolCallIds ↔ ∃ index, HasId seen index id

structure DescribesMarks (seen : List AssistantEvent) (collector : Collector) : Prop where
  started : collector.started = true ↔ ∃ localRequestId providerRequestId generationId,
    .start localRequestId providerRequestId generationId ∈ seen
  done : collector.done = true ↔ ∃ reason, .done reason ∈ seen
  finishReason : collector.done = true → ∃ reason, collector.finishReason = some reason
  usage : ∀ usage, collector.usage = some usage ↔ .usage usage ∈ seen
  usageDetails : ∀ details, collector.usageDetails = some details ↔
    .detailedUsage details ∈ seen

structure Describes (seen : List AssistantEvent) (collector : Collector) : Prop where
  sound : collector.Sound
  blocks : DescribesBlocks seen collector
  tools : DescribesTools seen collector
  marks : DescribesMarks seen collector

theorem describes_fresh : Describes [] .fresh where
  sound := fresh_sound
  blocks := by
    refine ⟨rfl, ?_, ?_⟩
    · simp [fresh, lookup_empty, IsOpen, startsOf]
    · simp [fresh, lookup_empty, startsOf]
  tools := by constructor <;> simp [fresh, startsOf, HasId]
  marks := by constructor <;> simp [fresh]

namespace AssistantEvent

def marksMessage : AssistantEvent → Bool
  | start .. | usage _ | detailedUsage _ | done _ => true
  | _ => false

end AssistantEvent

section Unmarked

variable {seen : List AssistantEvent} {event : AssistantEvent} {collector next : Collector}

theorem DescribesTools.unmarked (describes : DescribesTools seen collector)
    (unmarked : event.marksTool = false)
    (sameWireIndexes : next.toolWireIndexes = collector.toolWireIndexes)
    (sameIds : next.toolCallIds = collector.toolCallIds) :
    DescribesTools (seen ++ [event]) next where
  wireIndexes wireIndex := by
    rw [sameWireIndexes, describes.wireIndexes]
    simp only [toolStart_snoc unmarked]
  ids id := by
    rw [sameIds, describes.ids]
    simp only [hasId_snoc unmarked]

theorem DescribesMarks.unmarked (describes : DescribesMarks seen collector)
    (unmarked : event.marksMessage = false) (sameStarted : next.started = collector.started)
    (sameDone : next.done = collector.done)
    (sameReason : next.finishReason = collector.finishReason)
    (sameUsage : next.usage = collector.usage)
    (sameDetails : next.usageDetails = collector.usageDetails) :
    DescribesMarks (seen ++ [event]) next := by
  have keeps : ∀ {mark : AssistantEvent}, mark.marksMessage = true →
      (mark ∈ seen ++ [event] ↔ mark ∈ seen) := by
    intro mark marked
    rw [mem_append, mem_singleton]
    refine or_iff_left ?_
    rintro rfl
    cases unmarked.symm.trans marked
  refine ⟨?_, ?_, ?_, ?_, ?_⟩
  · rw [sameStarted, describes.started]
    refine exists_congr fun _ => exists_congr fun _ => exists_congr fun _ => ?_
    exact (keeps rfl).symm
  · rw [sameDone, describes.done]
    exact exists_congr fun _ => (keeps rfl).symm
  · rw [sameDone, sameReason]
    exact describes.finishReason
  · intro usage
    rw [sameUsage, describes.usage]
    exact (keeps rfl).symm
  · intro details
    rw [sameDetails, describes.usageDetails]
    exact (keeps rfl).symm

end Unmarked

/-! ## One event -/

section Blocks

variable {seen : List AssistantEvent} {event : AssistantEvent} {collector next : Collector}
  {index : ContentIndex} {start : BlockStart}

theorem opaqueOf_eq_none :
    opaqueOf? seen index = none ↔ ∀ earlier, .thinkingOpaque index earlier ∉ seen := by
  rw [opaqueOf?, findSome?_eq_none_iff]
  constructor
  · intro none_found earlier member
    simpa using none_found _ member
  · intro absent event member
    cases event with
    | thinkingOpaque at' opaqueState =>
      have different : at' ≠ index := by
        rintro rfl
        exact absent opaqueState member
      simp [different]
    | _ => rfl

namespace DescribesBlocks

theorem lookup_open (describes : DescribesBlocks seen collector)
    (isOpen : IsOpen seen index start) :
    lookup collector.openBlocks index = some (blockOf seen index start) :=
  (describes.opened index _).mpr ⟨start, isOpen, rfl⟩

theorem startBlock (describes : DescribesBlocks seen collector)
    (everywhere : Everywhere Fits seen)
    (started : event.starts? = some (index, start)) (noEnd : event.ends? = none)
    (unconcerned : event.concerns? = none)
    (accepted : collector.startBlock index (blockOf [] index start) = .ok next) :
    index.toNat = (startsOf seen).length ∧ DescribesBlocks (seen ++ [event]) next := by
  rcases startBlock_eq_ok.mp accepted with ⟨rfl, _, _, advanced, added, rfl⟩
  exact ⟨describes.next, describes.start_block everywhere started noEnd unconcerned
    describes.next (checkedAddU32_eq_some added) rfl rfl⟩

theorem startBlock_succeeds (describes : DescribesBlocks seen collector)
    (sound : collector.Sound) (short : seen.length < 2 ^ 32 - 1)
    (fresh : index.toNat = (startsOf seen).length) (block : OpenBlock) :
    Succeeds (collector.startBlock index block) := by
  have isNext : index = collector.nextContentIndex :=
    UInt32.toNat_inj.mp (fresh.trans describes.next.symm)
  have counted : (startsOf seen).length ≤ seen.length := length_filterMap_le ..
  have room : collector.nextContentIndex.toNat + (1 : UInt32).toNat < 2 ^ 32 := by
    rw [describes.next]
    show (startsOf seen).length + 1 < 2 ^ 32
    omega
  rw [isNext]
  exact ⟨_, sound.startBlock (if_pos room) block⟩

end DescribesBlocks

end Blocks

/-! ## Soundness of one step -/

section Step

variable {seen : List AssistantEvent} {event : AssistantEvent} {collector next : Collector}
  {index : ContentIndex} {start : BlockStart}

theorem done_marks {reason : FinishReason} (marks : DescribesMarks seen collector) :
    DescribesMarks (seen ++ [.done reason])
      { collector with done := true, finishReason := some reason } := by
  refine ⟨?_, ?_, ?_, ?_, ?_⟩
  · simpa using marks.started
  · exact iff_of_true rfl ⟨reason, mem_append_right _ (mem_singleton.mpr rfl)⟩
  · exact fun _ => ⟨reason, rfl⟩
  · simpa using marks.usage
  · simpa using marks.usageDetails

variable (describes : Describes seen collector)

include describes

theorem Describes.all_ended : collector.openBlocks.isEmpty = true ↔
      ∀ index start, (index, start) ∈ startsOf seen → index ∈ endsOf seen := by
  rw [isEmpty_iff_lookup]
  constructor
  · intro noneOpen index start started
    by_contra notEnded
    have found := describes.blocks.lookup_open ⟨started, notEnded⟩
    cases (noneOpen index).symm.trans found
  · intro allEnded index
    rw [Option.eq_none_iff_forall_ne_some]
    intro block found
    rcases (describes.blocks.opened index block).mp found with ⟨start, isOpen, _⟩
    exact isOpen.2 (allEnded index start isOpen.1)

section Fits

variable (everywhere : Everywhere Fits seen)

include everywhere

theorem Describes.extended (sound : next.Sound)
    (noStart : event.starts? = none) (noEnd : event.ends? = none)
    (concerns : event.concerns? = some index) (noTool : event.marksTool = false)
    (noMark : event.marksMessage = false) (isOpen : IsOpen seen index start)
    (next_eq : next = collector.setOpen index (blockOf (seen ++ [event]) index start)) :
    Describes (seen ++ [event]) next := by
  subst next_eq
  exact ⟨sound, describes.blocks.extend_block everywhere noStart noEnd concerns isOpen rfl rfl rfl,
    describes.tools.unmarked noTool rfl rfl, describes.marks.unmarked noMark rfl rfl rfl rfl rfl⟩

theorem Describes.opened (sound : next.Sound)
    (started : event.starts? = some (index, start)) (noEnd : event.ends? = none)
    (unconcerned : event.concerns? = none) (noTool : event.marksTool = false)
    (noMark : event.marksMessage = false)
    (accepted : collector.startBlock index (blockOf [] index start) = .ok next) :
    index.toNat = (startsOf seen).length ∧ Describes (seen ++ [event]) next := by
  rcases describes.blocks.startBlock everywhere started noEnd unconcerned accepted
    with ⟨fresh, blocks⟩
  rcases startBlock_eq_ok.mp accepted with ⟨_, _, _, _, _, rfl⟩
  exact ⟨fresh, sound, blocks, describes.tools.unmarked noTool rfl rfl,
    describes.marks.unmarked noMark rfl rfl rfl rfl rfl⟩

theorem Describes.ended {part : ContentPart} (sound : next.Sound) (noStart : event.starts? = none)
    (ends : event.ends? = some index) (unconcerned : event.concerns? = none)
    (noTool : event.marksTool = false) (noMark : event.marksMessage = false)
    (isOpen : IsOpen seen index start) (isPart : partOf? seen index start = some part)
    (accepted : collector.endBlock index part = .ok next) : Describes (seen ++ [event]) next := by
  rcases endBlock_eq_ok.mp accepted with ⟨_, rfl⟩
  have nowhere : ∀ other, event.concerns? ≠ some other := by simp [unconcerned]
  refine ⟨sound, ?_, describes.tools.unmarked noTool rfl rfl,
    describes.marks.unmarked noMark rfl rfl rfl rfl rfl⟩
  refine describes.blocks.end_block everywhere noStart ends (fun other _ => nowhere other)
    isOpen ?_ rfl rfl rfl
  rw [partOf_snoc_unconcerned (nowhere index), isPart]

theorem toolCallStart_sound {wireIndex : WireToolIndex} {id : Option ToolCallId}
    (sound : next.Sound) (accepted : collector.acceptToolCallStart index wireIndex id = .ok next) :
    (index.toNat = (startsOf seen).length ∧
      (∀ other otherId, (other, .toolCall wireIndex otherId) ∉ startsOf seen) ∧
        ∀ known ∈ id, ∀ other, ¬ HasId seen other known) ∧
      Describes (seen ++ [.toolCallStart index wireIndex id]) next := by
  rcases acceptToolCallStart_eq_ok.mp accepted with ⟨newWireIndex, newId, started⟩
  rcases describes.blocks with ⟨isNext, opened, closed⟩
  have marked : DescribesBlocks seen { collector with
      toolWireIndexes := collector.toolWireIndexes.insert wireIndex
      toolCallIds := id.elim collector.toolCallIds collector.toolCallIds.insert } :=
    ⟨isNext, opened, closed⟩
  rcases @DescribesBlocks.startBlock seen (.toolCallStart index wireIndex id) _ _ _ _ marked
    everywhere rfl rfl rfl started with ⟨fresh, blocks⟩
  rcases startBlock_eq_ok.mp started with ⟨_, _, _, _, _, rfl⟩
  have starts : startsOf (seen ++ [.toolCallStart index wireIndex id]) =
      startsOf seen ++ [(index, .toolCall wireIndex id)] := startsOf_snoc
  refine ⟨⟨fresh, ?_, ?_⟩, sound, blocks, ⟨?_, ?_⟩,
    describes.marks.unmarked rfl rfl rfl rfl rfl rfl⟩
  · intro other otherId used
    exact newWireIndex ((describes.tools.wireIndexes wireIndex).mpr ⟨other, otherId, used⟩)
  · intro known isId other used
    exact newId known isId ((describes.tools.ids known).mpr ⟨other, used⟩)
  · intro other
    rw [mem_set_insert_iff, describes.tools.wireIndexes, starts]
    simp only [mem_append, mem_singleton, Prod.mk.injEq, BlockStart.toolCall.injEq]
    constructor
    · rintro (⟨otherIndex, otherId, used⟩ | rfl)
      · exact ⟨otherIndex, otherId, .inl used⟩
      · exact ⟨index, id, .inr ⟨rfl, rfl, rfl⟩⟩
    · rintro ⟨otherIndex, otherId, used | ⟨_, same, _⟩⟩
      · exact .inl ⟨otherIndex, otherId, used⟩
      · exact .inr same
  · intro other
    simp only [hasId_snoc_start, exists_or, exists_and_right, exists_eq, true_and,
      ← describes.tools.ids]
    cases id with
    | none => simp
    | some known =>
      rw [Option.some.injEq, eq_comm (a := known)]
      exact mem_set_insert_iff

theorem toolCallEnd_sound {call : ToolCall} (sound : next.Sound)
    (accepted : collector.acceptToolCallEnd index call = .ok next) :
    (∃ wireIndex id, IsOpen seen index (.toolCall wireIndex id) ∧
      (∀ known ∈ id, known = call.id) ∧ (id = none → ∀ other, ¬ HasId seen other call.id) ∧
        textOf seen .toolName index = call.name.value ∧
          textOf seen .toolArguments index = call.arguments.rawJson) ∧
      Describes (seen ++ [.toolCallEnd index call]) next := by
  unfold acceptToolCallEnd at accepted
  split at accepted
  · next wireIndex id name arguments found =>
      simp only [bind_eq_ok, reject_eq_ok, exists_const, not_exists, not_and, not_not,
        ne_eq] at accepted
      rcases accepted with ⟨sameId, newId, sameName, sameArguments, ended⟩
      rcases (describes.blocks.opened index _).mp found with ⟨start, isOpen, isBlock⟩
      cases start <;> cases isBlock
      refine ⟨⟨wireIndex, id, isOpen, sameId, ?_, sameName, sameArguments⟩, ?_⟩
      · intro unannounced other used
        exact newId unannounced ((describes.tools.ids call.id).mpr ⟨other, used⟩)
      rcases endBlock_eq_ok.mp ended with ⟨_, rfl⟩
      refine ⟨sound, ?_, ⟨?_, ?_⟩, describes.marks.unmarked rfl rfl rfl rfl rfl rfl⟩
      · refine describes.blocks.end_block everywhere rfl rfl ?_ isOpen ?_ rfl rfl rfl
        · intro other different same
          exact different (Option.some.inj same).symm
        · have given : callOf? (seen ++ [.toolCallEnd index call]) index = some call := by
            rw [callOf?, findSome?_append]
            rw [show findSome? _ seen = callOf? seen index from rfl, callOf_eq_none isOpen.2]
            simp
          rw [partOf?, given]
          rfl
      · intro other
        rw [startsOf_snoc_none rfl]
        exact describes.tools.wireIndexes other
      · intro other
        simp only [hasId_snoc_end, exists_or, exists_and_right, exists_eq, true_and,
          ← describes.tools.ids]
        cases id with
        | none =>
          rw [eq_comm (a := call.id)]
          exact mem_set_insert_iff
        | some known =>
          -- an announced id is in the set already
          have same := sameId known rfl
          subst same
          have registered : call.id ∈ collector.toolCallIds :=
            (describes.tools.ids _).mpr ⟨index, .inl ⟨wireIndex, isOpen.1⟩⟩
          exact (or_iff_left_of_imp fun isCall => isCall ▸ registered).symm
  · cases accepted

/-! ## The end of the message -/

theorem Describes.mem_content : index ∈ collector.content ↔ index ∈ endsOf seen := by
  constructor
  · intro completed
    rcases mem_iff_lookup.mp completed with ⟨part, found⟩
    rcases (describes.blocks.closed index part).mp found with ⟨_, _, ended, _⟩
    exact ended
  · intro ended
    rcases started_of_ended everywhere ended with ⟨start, started⟩
    have numbered : index.toNat < collector.nextContentIndex.toNat :=
      describes.blocks.next ▸ index_lt_of_numbered (numbered_of_fits everywhere) started
    rcases (describes.sound.contiguous index).mpr numbered with stillOpen | completed
    · rcases mem_iff_lookup.mp stillOpen with ⟨block, found⟩
      rcases (describes.blocks.opened index block).mp found with ⟨_, isOpen, _⟩
      exact absurd ended isOpen.2
    · exact completed

theorem Describes.none_ended : collector.content.isEmpty = true ↔ endsOf seen = [] := by
  rw [TreeMap.isEmpty_iff_forall_not_mem, eq_nil_iff_forall_not_mem]
  simp only [describes.mem_content everywhere]

theorem Describes.hasToolCall_iff :
    collector.hasToolCall = true ↔ ∃ index call, .toolCallEnd index call ∈ seen := by
  rw [Collector.hasToolCall_iff]
  constructor
  · rintro ⟨index, part, found, isTool⟩
    rcases (describes.blocks.closed index part).mp found with ⟨start, _, _, isPart⟩
    cases start with
    | toolCall =>
      rcases Option.map_eq_some_iff.mp isPart with ⟨call, called, _⟩
      rcases exists_of_findSome?_eq_some called with ⟨event, member, given⟩
      cases event with
      | toolCallEnd at' other => exact ⟨at', other, member⟩
      | _ => cases given
    | _ =>
      cases isPart
      cases isTool
  · rintro ⟨index, call, called⟩
    have ended : index ∈ endsOf seen := mem_filterMap.mpr ⟨_, called, rfl⟩
    rcases mem_iff_lookup.mp ((describes.mem_content everywhere).mpr ended) with ⟨part, found⟩
    refine ⟨index, part, found, ?_⟩
    rcases (describes.blocks.closed index part).mp found with ⟨start, started, _, isPart⟩
    rcases started_of_addresses everywhere called rfl with ⟨asTool, again, isTool⟩
    cases start_unique_of_numbered (numbered_of_fits everywhere) started again
    cases start with
    | toolCall =>
      rcases Option.map_eq_some_iff.mp isPart with ⟨_, _, rfl⟩
      rfl
    | text | thinking | refusal => cases isTool

theorem Describes.acceptDone_eq_ok {reason : FinishReason} :
    collector.acceptDone reason = .ok next ↔
      ((∀ index start, (index, start) ∈ startsOf seen → index ∈ endsOf seen) ∧
        endsOf seen ≠ [] ∧
          (reason = .toolCalls ↔ ∃ index call, .toolCallEnd index call ∈ seen)) ∧
        { collector with done := true, finishReason := some reason } = next := by
  have agree : decide (reason = .toolCalls) = collector.hasToolCall ↔
      (reason = .toolCalls ↔ ∃ index call, .toolCallEnd index call ∈ seen) := by
    rw [Bool.eq_iff_iff, decide_eq_true_iff, describes.hasToolCall_iff everywhere]
  simp only [acceptDone, bind_eq_ok, reject_eq_ok, exists_const, Except.ok.injEq, Bool.not_eq_false,
    not_not, ne_eq, describes.all_ended, describes.none_ended everywhere, agree, and_assoc]

end Fits

theorem Describes.marked (sound : next.Sound)
    (noStart : event.starts? = none) (noEnd : event.ends? = none)
    (unconcerned : event.concerns? = none) (noTool : event.marksTool = false)
    (sameNext : next.nextContentIndex = collector.nextContentIndex)
    (sameOpen : next.openBlocks = collector.openBlocks)
    (sameContent : next.content = collector.content)
    (sameWireIndexes : next.toolWireIndexes = collector.toolWireIndexes)
    (sameIds : next.toolCallIds = collector.toolCallIds)
    (marks : DescribesMarks (seen ++ [event]) next) : Describes (seen ++ [event]) next :=
  ⟨sound, describes.blocks.aside noStart noEnd unconcerned sameNext sameOpen sameContent,
    describes.tools.unmarked noTool sameWireIndexes sameIds, marks⟩

theorem start_sound {localRequestId : LocalRequestId}
    {providerRequestId : Option ProviderRequestId} {generationId : Option GenerationId}
    (sound : next.Sound) (accepted :
      collector.acceptStart localRequestId providerRequestId generationId = .ok next) :
    (startsOf seen = [] ∧ ∀ localId providerId generation,
      .start localId providerId generation ∉ seen) ∧
        Describes (seen ++ [.start localRequestId providerRequestId generationId]) next := by
  simp only [acceptStart, bind_eq_ok, reject_eq_ok, exists_const, Except.ok.injEq,
    not_or, not_not, ne_eq] at accepted
  rcases accepted with ⟨⟨notStarted, noBlocks⟩, rfl⟩
  rcases describes.marks with ⟨started, done, finishReason, usage, usageDetails⟩
  refine ⟨⟨?_, ?_⟩, ?_⟩
  · have none_started := describes.blocks.next
    rw [noBlocks] at none_started
    exact length_eq_zero_iff.mp none_started.symm
  · intro localId providerId generation member
    exact notStarted (started.mpr ⟨localId, providerId, generation, member⟩)
  · refine describes.marked sound rfl rfl rfl rfl rfl rfl rfl rfl rfl ⟨?_, ?_, ?_, ?_, ?_⟩
    · exact iff_of_true rfl ⟨_, _, _, mem_append_right _ (mem_singleton.mpr rfl)⟩
    · simpa using done
    · exact finishReason
    · simpa using usage
    · simpa using usageDetails

theorem usage_sound {reported : Usage} (sound : next.Sound)
    (accepted : collector.apply (.usage reported) = .ok next) :
    (∀ other, .usage other ∈ seen → other = reported) ∧
      Describes (seen ++ [.usage reported]) next := by
  rcases describes.marks with ⟨started, done, finishReason, usage, usageDetails⟩
  rcases apply_usage_eq_ok.mp accepted with ⟨agrees, rfl⟩
  simp only [usage] at agrees
  refine ⟨agrees, describes.marked sound rfl rfl rfl rfl rfl rfl rfl rfl rfl
    ⟨?_, ?_, finishReason, ?_, ?_⟩⟩
  · simpa using started
  · simpa using done
  · intro other
    simp only [Option.some.injEq, mem_append, mem_singleton, AssistantEvent.usage.injEq]
    exact ⟨fun same => .inr same.symm, fun member => (member.elim (agrees other) id).symm⟩
  · simpa using usageDetails

theorem detailedUsage_sound {reported : UsageDetails} (sound : next.Sound)
    (accepted : collector.apply (.detailedUsage reported) = .ok next) :
    (∀ other, .detailedUsage other ∈ seen → other = reported) ∧
      Describes (seen ++ [.detailedUsage reported]) next := by
  rcases describes.marks with ⟨started, done, finishReason, usage, usageDetails⟩
  rcases apply_detailedUsage_eq_ok.mp accepted with ⟨agrees, rfl⟩
  simp only [usageDetails] at agrees
  refine ⟨agrees, describes.marked sound rfl rfl rfl rfl rfl rfl rfl rfl rfl
    ⟨?_, ?_, finishReason, ?_, ?_⟩⟩
  · simpa using started
  · simpa using done
  · simpa using usage
  · intro other
    simp only [Option.some.injEq, mem_append, mem_singleton, AssistantEvent.detailedUsage.injEq]
    exact ⟨fun same => .inr same.symm, fun member => (member.elim (agrees other) id).symm⟩

end Step

end Philo
