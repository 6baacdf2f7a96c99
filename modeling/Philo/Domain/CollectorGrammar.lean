import Philo.Domain.CollectorSpec
import Philo.Domain.EventText

/-! The collector accepts exactly the sequences of the event grammar, and what it collects
is what they tell. -/

namespace Philo

open Result Std KeyedText Collector List

/-! ## Every event -/

section Step

variable {seen : List AssistantEvent} {event : AssistantEvent} {collector next : Collector}

theorem extend_told {index : ContentIndex} {start : BlockStart} {block' : OpenBlock}
    (notDone : ∀ reason, .done reason ∉ seen) (isOpen : IsOpen seen index start)
    (isDelta : event.extended? = some index)
    (extended : (blockOf seen index start).extend event = some block') :
    Fits seen event ∧ blockOf (seen ++ [event]) index start = block' := by
  cases event <;> cases isDelta
  case textDelta | refusalDelta =>
      cases start <;> cases extended
      exact ⟨⟨notDone, isOpen⟩, by rw [blockOf, textOf_snoc_same rfl]⟩
  case thinkingDelta =>
      cases start <;> cases extended
      refine ⟨⟨notDone, isOpen⟩, ?_⟩
      rw [blockOf, textOf_snoc_same rfl, opaqueOf?, opaqueOf?, findSome?_append]
      simp
  case thinkingOpaque opaqueState =>
      rcases start with _ | _ | _ | _
      case thinking =>
        cases noState : opaqueOf? seen index <;> rw [blockOf, noState] at extended <;>
          cases extended
        refine ⟨⟨notDone, isOpen, opaqueOf_eq_none.mp noState⟩, ?_⟩
        rw [blockOf, textOf_snoc_other _ (by simp [AssistantEvent.fragment?]), opaqueOf?,
          findSome?_append, ← opaqueOf?, noState]
        simp
      all_goals cases extended
  case toolCallDelta =>
      cases start with
      | toolCall =>
        rcases Option.ite_none_right_eq_some.mp extended with ⟨rfl, isBlock⟩
        cases isBlock
        refine ⟨⟨notDone, _, isOpen⟩, ?_⟩
        rw [blockOf, textOf_snoc_same rfl, textOf_snoc_same rfl]
      | _ => cases extended

/-- What the collector accepts fits, and the collector then knows of it. -/
theorem apply_fits (describes : Describes seen collector) (everywhere : Everywhere Fits seen)
    (notDone : ∀ reason, .done reason ∉ seen) (sound : next.Sound)
    (accepted : collector.apply event = .ok next) :
    Fits seen event ∧ Describes (seen ++ [event]) next := by
  cases event with
  | start => exact (start_sound describes sound accepted).imp_left (⟨notDone, ·⟩)
  | textStart | thinkingStart | refusalStart =>
    exact And.imp_left (⟨notDone, ·⟩)
      (describes.opened everywhere sound rfl rfl rfl rfl rfl (by exact accepted))
  | toolCallStart =>
    exact (toolCallStart_sound describes everywhere sound accepted).imp_left (⟨notDone, ·⟩)
  | textDelta | thinkingDelta | thinkingOpaque | refusalDelta | toolCallDelta =>
    rcases (apply_extended rfl).mp accepted with ⟨_, block', found, extended, rfl⟩
    rcases (describes.blocks.opened _ _).mp found with ⟨start, isOpen, rfl⟩
    rcases extend_told notDone isOpen rfl extended with ⟨fits, rfl⟩
    exact ⟨fits, describes.extended everywhere sound rfl rfl rfl rfl rfl isOpen rfl⟩
  | textEnd | thinkingEnd | refusalEnd =>
    rcases (apply_closed rfl).mp accepted with ⟨_, part, found, isPart, ended⟩
    rcases (describes.blocks.opened _ _).mp found with ⟨start, isOpen, rfl⟩
    cases start <;> cases isPart
    exact ⟨⟨notDone, isOpen⟩, describes.ended everywhere sound rfl rfl rfl rfl rfl isOpen rfl ended⟩
  | toolCallEnd =>
    exact (toolCallEnd_sound describes everywhere sound accepted).imp_left (⟨notDone, ·⟩)
  | usage => exact (usage_sound describes sound accepted).imp_left (⟨notDone, ·⟩)
  | detailedUsage => exact (detailedUsage_sound describes sound accepted).imp_left (⟨notDone, ·⟩)
  | done reason =>
    rcases (describes.acceptDone_eq_ok everywhere).mp accepted with ⟨fits, rfl⟩
    exact ⟨⟨notDone, fits⟩,
      describes.marked sound rfl rfl rfl rfl rfl rfl rfl rfl rfl (done_marks describes.marks)⟩

theorem apply_of_fits (describes : Describes seen collector)
    (everywhere : Everywhere Fits seen) (short : seen.length < 2 ^ 32 - 1)
    (fits : Fits seen event) :
    Succeeds (collector.apply event) := by
  have starts : ∀ {index : ContentIndex} (block : OpenBlock),
      index.toNat = (startsOf seen).length → Succeeds (collector.startBlock index block) :=
    fun block fresh => describes.blocks.startBlock_succeeds describes.sound short fresh block
  rcases fits with ⟨_, fits⟩
  cases event with
  | start =>
    have noBlocks : collector.nextContentIndex = 0 := by
      apply UInt32.toNat_inj.mp
      rw [describes.blocks.next, fits.1]
      rfl
    have notStarted : ¬ collector.started = true := by
      rw [describes.marks.started]
      rintro ⟨_, _, _, member⟩
      exact fits.2 _ _ _ member
    simp [apply, acceptStart, reject, noBlocks, notStarted, Succeeds]
  | textStart | thinkingStart | refusalStart => exact starts _ fits
  | toolCallStart index wireIndex id =>
    rcases fits with ⟨fresh, newWireIndex, newId⟩
    rcases starts (.toolCall wireIndex id "" "") fresh with ⟨next, started⟩
    rcases startBlock_eq_ok.mp started with
      ⟨isNext, notOpen, notCompleted, advanced, added, _⟩
    refine ⟨_, acceptToolCallStart_eq_ok.mpr ⟨?_, ?_,
      startBlock_eq_ok.mpr ⟨isNext, notOpen, notCompleted, advanced, added, rfl⟩⟩⟩
    · intro used
      rcases (describes.tools.wireIndexes wireIndex).mp used with ⟨other, otherId, asTool⟩
      exact newWireIndex other otherId asTool
    · intro known isId used
      rcases (describes.tools.ids known).mp used with ⟨other, hasId⟩
      exact newId known isId other hasId
  | textDelta | thinkingDelta | refusalDelta =>
    exact ⟨_, (apply_extended rfl).mpr
      ⟨_, _, describes.blocks.lookup_open fits, rfl, rfl⟩⟩
  | thinkingOpaque =>
    have found := describes.blocks.lookup_open fits.1
    rw [blockOf, opaqueOf_eq_none.mpr fits.2] at found
    exact ⟨_, (apply_extended rfl).mpr ⟨_, _, found, rfl, rfl⟩⟩
  | toolCallDelta =>
    rcases fits with ⟨id, isOpen⟩
    exact ⟨_, (apply_extended rfl).mpr
      ⟨_, _, describes.blocks.lookup_open isOpen, if_pos rfl, rfl⟩⟩
  | textEnd | thinkingEnd | refusalEnd =>
    exact ⟨_, apply_end describes.sound rfl (describes.blocks.lookup_open fits) rfl⟩
  | toolCallEnd index call =>
    rcases fits with ⟨wireIndex, id, isOpen, sameId, newId, sameName, sameArguments⟩
    have found := describes.blocks.lookup_open isOpen
    rw [blockOf, sameName] at found
    refine ⟨_, apply_toolCallEnd describes.sound found sameId ?_ sameArguments⟩
    intro unannounced used
    rcases (describes.tools.ids call.id).mp used with ⟨other, hasId⟩
    exact newId unannounced other hasId
  | usage reported =>
    refine ⟨_, apply_usage_eq_ok.mpr ⟨fun previous found => ?_, rfl⟩⟩
    exact fits previous ((describes.marks.usage previous).mp found)
  | detailedUsage reported =>
    refine ⟨_, apply_detailedUsage_eq_ok.mpr ⟨fun previous found => ?_, rfl⟩⟩
    exact fits previous ((describes.marks.usageDetails previous).mp found)
  | done reason => exact ⟨_, (describes.acceptDone_eq_ok everywhere).mpr ⟨fits, rfl⟩⟩

end Step

/-- The collector accepts an event exactly when it fits what came before it. -/
theorem collector_accepts : consumer.Accepts Describes Fits (2 ^ 32 - 1) where
  sound := by
    intro seen collector event next everywhere describes accepted
    rcases accept_eq_ok.mp accepted with ⟨notDone, applied⟩
    have noDone : ∀ reason, .done reason ∉ seen := by
      intro reason member
      have isDone := describes.marks.done.mpr ⟨reason, member⟩
      cases notDone.symm.trans isDone
    exact apply_fits describes everywhere noDone
      (accept_sound describes.sound accepted) applied
  complete := by
    intro seen collector event short everywhere describes fits
    have notDone : collector.done = false := by
      rw [← Bool.not_eq_true, describes.marks.done]
      rintro ⟨reason, member⟩
      exact fits.1 reason member
    rcases apply_of_fits describes everywhere short fits with ⟨next, applied⟩
    exact ⟨next, accept_eq_ok.mpr ⟨notDone, applied⟩⟩

theorem acceptAll_fits {events : List AssistantEvent} {final : Collector}
    (accepted : consumer.acceptAll .fresh events = .ok final) :
    Everywhere Fits events ∧ Describes events final :=
  collector_accepts.acceptAll_sound (everywhere_nil _) describes_fresh accepted

/-! ## Whole sequences -/

section Collect

variable {events : List AssistantEvent} {collector : Collector} {message : AssistantMessage}

theorem Describes.finish_eq_ok (describes : Describes events collector) :
    Succeeds collector.finish ↔ ∃ reason, .done reason ∈ events := by
  rw [← describes.marks.done]
  constructor
  · rintro ⟨message, finished⟩
    simp only [finish, bind_eq_ok, reject_eq_ok, exists_const, Bool.not_eq_false] at finished
    exact finished.1
  · intro isDone
    rcases describes.marks.finishReason isDone with ⟨reason, isReason⟩
    simp [finish, reject, okOr, isDone, isReason, Succeeds]

theorem content_keys_sorted (collector : Collector) :
    (collector.content.toList.map fun entry => entry.1.toNat).Pairwise (· < ·) := by
  refine pairwise_map.mpr (TreeMap.ordered_keys_toList.imp fun below => ?_)
  exact UInt32.lt_iff_toNat_lt.mp (compareOfLessAndEq_eq_lt.mp below)

theorem Describes.parts_eq (describes : Describes events collector)
    (everywhere : Everywhere Fits events)
    (allEnded : ∀ index start, (index, start) ∈ startsOf events → index ∈ endsOf events) :
    collector.parts.map some =
      (startsOf events).map fun started => partOf? events started.1 started.2 := by
  have found : ∀ entry ∈ collector.content.toList,
      some entry.2 = lookup collector.content entry.1 := by
    intro entry member
    exact (TreeMap.mem_toList_iff_getElem?_eq_some.mp member).symm
  have told : ∀ started ∈ startsOf events,
      lookup collector.content started.1 = partOf? events started.1 started.2 := by
    rintro ⟨index, start⟩ started
    have completed := (describes.mem_content everywhere).mpr (allEnded index start started)
    rcases mem_iff_lookup.mp completed with ⟨part, isPart⟩
    rcases (describes.blocks.closed index part).mp isPart with ⟨other, again, _, isOther⟩
    cases start_unique_of_numbered (numbered_of_fits everywhere) started again
    exact isPart.trans isOther.symm
  have sameKeys : collector.content.toList.map Prod.fst = (startsOf events).map Prod.fst := by
    apply map_injective_iff.mpr (fun _ _ => UInt32.toNat_inj.mp)
    rw [map_map, map_map]
    have sorted : ((startsOf events).map fun started => started.1.toNat).Pairwise (· < ·) := by
      rw [numbered_of_fits everywhere]
      exact pairwise_lt_range
    refine Pairwise.eq_of_mem_iff (content_keys_sorted collector) sorted ?_
    intro key
    simp only [mem_map, Prod.exists, Function.comp_apply]
    constructor
    · rintro ⟨index, part, member, isKey⟩
      have isPart : lookup collector.content index = some part := (found _ member).symm
      rcases (describes.blocks.closed index part).mp isPart with ⟨start, started, _⟩
      exact ⟨index, start, started, isKey⟩
    · rintro ⟨index, start, started, isKey⟩
      have completed := (describes.mem_content everywhere).mpr (allEnded index start started)
      rcases mem_iff_lookup.mp completed with ⟨part, isPart⟩
      exact ⟨index, part, TreeMap.mem_toList_iff_getElem?_eq_some.mpr isPart, isKey⟩
  calc collector.parts.map some
      = collector.content.toList.map fun entry => lookup collector.content entry.1 := by
        rw [parts, map_map]
        exact map_congr_left found
    _ = (collector.content.toList.map Prod.fst).map (lookup collector.content) := by
        rw [map_map]
        rfl
    _ = (startsOf events).map fun started => lookup collector.content started.1 := by
        rw [sameKeys, map_map]
        rfl
    _ = (startsOf events).map fun started => partOf? events started.1 started.2 :=
        map_congr_left told

/-- The content and the text of a collected message, told by the events alone. -/
theorem collect_told (collected : consumer.collect .fresh events = .ok message) :
    Everywhere Fits events ∧ EventGrammar events ∧
      message.content.map some =
          ((startsOf events).map fun started => partOf? events started.1 started.2) ∧
        message.text = String.join (message.content.filterMap ContentPart.textValue) := by
  rcases bind_eq_ok.mp collected with ⟨final, ran, finished⟩
  rcases acceptAll_fits ran with ⟨everywhere, describes⟩
  have grammar := grammar_of_fits everywhere (describes.finish_eq_ok.mp ⟨message, finished⟩)
  have parts := describes.parts_eq everywhere grammar.all_ended
  simp only [consumer, finish, bind_eq_ok, reject_eq_ok, exists_const,
    okOr_eq_ok, Except.ok.injEq] at finished
  rcases finished with ⟨_, _, _, rfl⟩
  exact ⟨everywhere, grammar, parts, rfl⟩

/-- The collector accepts a sequence of events and returns a message exactly when the
sequence is one of the grammar. The content at an index is then the concatenation of what
arrived for that index, however the blocks were interleaved. -/
theorem collect_iff_grammar (events : List AssistantEvent)
    (short : events.length < 2 ^ 32 - 1) :
    (Succeeds (consumer.collect .fresh events) ↔ EventGrammar events) ∧
      ∀ message, consumer.collect .fresh events = .ok message →
        message.content.length = (startsOf events).length ∧
          (∀ index start, (index, start) ∈ startsOf events →
            message.content[index.toNat]? = partOf? events index start) ∧
          ∀ index call, .toolCallEnd index call ∈ events →
            textOf events .toolName index = call.name.value ∧
              textOf events .toolArguments index = call.arguments.rawJson := by
  have withinLimit : ([] : List AssistantEvent).length + events.length ≤ 2 ^ 32 - 1 := by
    simpa using Nat.le_of_lt short
  refine ⟨⟨?_, ?_⟩, ?_⟩
  · rintro ⟨message, collected⟩
    exact (collect_told collected).2.1
  · intro grammar
    rcases eventGrammar_iff.mp grammar with ⟨everywhere, isDone⟩
    rcases collector_accepts.acceptAll_complete withinLimit describes_fresh
      (by simpa using everywhere) with ⟨final, ran⟩
    have described := acceptAll_fits ran
    rcases described.2.finish_eq_ok.mpr isDone with ⟨message, finished⟩
    exact ⟨message, bind_eq_ok.mpr ⟨final, ran, finished⟩⟩
  · intro message collected
    rcases collect_told collected with ⟨everywhere, grammar, parts, _⟩
    refine ⟨by simpa using congrArg length parts, ?_, callTexts_of_fits everywhere⟩
    intro index start started
    have found := congrArg (fun contents => contents[index.toNat]?) parts
    simp only [getElem?_map, getElem_of_numbered grammar.numbered started,
      Option.map_some] at found
    rcases Option.map_eq_some_iff.mp found with ⟨part, isPart, told⟩
    rw [isPart, told]

def interleavedEvents : List AssistantEvent :=
  [.textStart 0, .textDelta 0 "first", .refusalStart 1, .textDelta 0 " answer",
    .refusalDelta 1 "no", .textEnd 0, .refusalEnd 1, .done .stop]

theorem collect_interleavedEvents : EventGrammar interleavedEvents ∧
    ∃ message, consumer.collect .fresh interleavedEvents = .ok message ∧
      message.content[0]? = some (.text "first answer") := by
  have spec := collect_iff_grammar interleavedEvents (by decide)
  have collected : consumer.collect .fresh interleavedEvents = .ok _ := rfl
  refine ⟨spec.1.mp ⟨_, collected⟩, _, collected, ?_⟩
  exact (spec.2 _ collected).2.1 0 .text (by simp [interleavedEvents, startsOf,
    AssistantEvent.starts?])

/-! ## The text of the message -/

theorem textPieces_eq (events : List AssistantEvent) : textPieces events =
      (events.filterMap (AssistantEvent.fragment? .text)).map (Prod.map UInt32.toNat id) := by
  rw [map_filterMap, textPieces]
  refine filterMap_congr fun event _ => ?_
  cases event <;> rfl

theorem textOf_eq_joinedAt (events : List AssistantEvent) (index : ContentIndex) :
    textOf events .text index = joinedAt index.toNat (textPieces events) := by
  rw [textPieces_eq, joinedAt_map (fun _ _ => UInt32.toNat_inj.mp), textOf]

theorem join_filterMap {α : Type} (view : α → Option String) (items : List α) :
    String.join (items.filterMap view) =
      String.join (items.map fun item => (view item).getD "") := by
  induction items with
  | nil => rfl
  | cons item rest induction =>
    rw [map_cons, String.join_cons, ← induction, filterMap_cons]
    cases view item with
    | none => exact String.empty_append.symm
    | some text => exact String.join_cons

/-- A message collected from events that never go back to an earlier block has the text
of the events in the order in which it arrived. -/
theorem Collector.text_of_collect (inOrder : InOrder (textPieces events))
    (collected : consumer.collect .fresh events = .ok message) :
    message.text = answerText events := by
  rcases collect_told collected with ⟨everywhere, grammar, parts, isText⟩
  have arrived : ∀ key, joinedAt key (textPieces events) ≠ "" →
      ∃ index, index.toNat = key ∧ (index, .text) ∈ startsOf events := by
    intro key filled
    by_contra absent
    refine filled (joinedAt_eq_empty fun piece member isKey => absent ?_)
    rcases mem_textPieces.mp member with ⟨index, delta, isEvent, rfl⟩
    rcases started_of_addresses everywhere isEvent rfl with ⟨start, started, isText⟩
    exact ⟨index, isKey, of_decide_eq_true isText ▸ started⟩
  have textAt : ∀ started ∈ startsOf events,
      ((partOf? events started.1 started.2).bind ContentPart.textValue).getD "" =
        joinedAt started.1.toNat (textPieces events) := by
    rintro ⟨index, start⟩ started
    by_cases isText : start = .text
    · rw [isText, ← textOf_eq_joinedAt]
      rfl
    · have silent : joinedAt index.toNat (textPieces events) = "" := by
        by_contra filled
        rcases arrived _ filled with ⟨other, same, asText⟩
        cases UInt32.toNat_inj.mp same
        exact isText (start_unique_of_numbered grammar.numbered started asText)
      rw [silent]
      cases start with
      | text => exact absurd rfl isText
      | thinking | refusal => rfl
      | toolCall =>
        cases called : callOf? events index <;> simp [partOf?, called, ContentPart.textValue]
  calc message.text
      = String.join ((startsOf events).filterMap fun started =>
          (partOf? events started.1 started.2).bind ContentPart.textValue) := by
        have told := congrArg (filterMap (Option.bind · ContentPart.textValue)) parts
        rw [filterMap_map, filterMap_map] at told
        exact isText.trans (congrArg String.join told)
    _ = String.join (((startsOf events).map fun started => started.1.toNat).map
          (joinedAt · (textPieces events))) := by
        rw [join_filterMap, map_map]
        exact congrArg String.join (map_congr_left textAt)
    _ = answerText events := by
        refine join_joinedAt ?_ inOrder fun key filled => ?_
        · rw [grammar.numbered]
          exact pairwise_lt_range
        · rcases arrived key filled with ⟨index, isKey, started⟩
          exact mem_map.mpr ⟨_, started, isKey⟩

end Collect

end Philo
