import Philo.Domain.EventGrammar

/-! The event grammar as a condition on each event and what came before it. -/

namespace Philo

open List

/-! ## Fitting everywhere -/

section Everywhere

variable {events seen : List AssistantEvent} {event : AssistantEvent}

theorem numbered_of_fits (everywhere : Everywhere Fits events) :
    (startsOf events).map (fun started => started.1.toNat) =
      range (startsOf events).length := by
  refine everywhere.induction ?_ ?_
  · rfl
  intro seen event _ fits numbered
  rw [startsOf_snoc]
  cases started : event.starts? with
  | none => simpa using numbered
  | some block =>
    have isNext : block.1.toNat = (startsOf seen).length := by
      cases event <;> cases started
      case toolCallStart => exact fits.2.1
      all_goals exact fits.2
    simp [numbered, isNext, range_succ]

theorem wireIndexes_of_fits (everywhere : Everywhere Fits events) :
    ∀ index other wireIndex id otherId, (index, .toolCall wireIndex id) ∈ startsOf events →
      (other, .toolCall wireIndex otherId) ∈ startsOf events → index = other := by
  refine everywhere.induction ?_ ?_
  · simp [startsOf]
  intro seen event _ fits distinct index other wireIndex id otherId
  by_cases unmarked : event.marksTool = false
  · rw [toolStart_snoc unmarked, toolStart_snoc unmarked]
    exact distinct index other wireIndex id otherId
  · cases event with
    | toolCallStart newIndex newWire newId =>
      rcases fits with ⟨_, _, unused, _⟩
      simp only [startsOf_snoc, AssistantEvent.starts?, Option.toList_some, mem_append,
        mem_singleton, Prod.mk.injEq, BlockStart.toolCall.injEq]
      rintro (earlier | ⟨rfl, rfl, _⟩) (otherEarlier | ⟨rfl, sameWire, _⟩)
      · exact distinct index other wireIndex id otherId earlier otherEarlier
      · exact absurd (sameWire ▸ earlier) (unused index id)
      · exact absurd otherEarlier (unused other otherId)
      · rfl
    | toolCallEnd =>
      simp only [startsOf_snoc, AssistantEvent.starts?, Option.toList_none, append_nil]
      exact distinct index other wireIndex id otherId
    | _ => exact absurd rfl unmarked

theorem ids_of_fits (everywhere : Everywhere Fits events) :
    ∀ index other id, HasId events index id → HasId events other id → index = other := by
  refine everywhere.induction ?_ ?_
  · simp [HasId, startsOf]
  intro seen event _ fits distinct index other id
  by_cases unmarked : event.marksTool = false
  · rw [hasId_snoc unmarked, hasId_snoc unmarked]
    exact distinct index other id
  · cases event with
    | toolCallStart started wireIndex announced =>
      rcases fits with ⟨_, _, _, unused⟩
      simp only [hasId_snoc_start]
      rintro (earlier | ⟨rfl, isId⟩) (otherEarlier | ⟨rfl, otherIsId⟩)
      · exact distinct index other id earlier otherEarlier
      · exact absurd earlier (unused id otherIsId index)
      · exact absurd otherEarlier (unused id isId other)
      · rfl
    | toolCallEnd ended call =>
      rcases fits with ⟨_, wireIndex, announced, isOpen, sameId, unused, _⟩
      -- whoever has the id of the call already is the block that announced it
      have known : ∀ holder, HasId seen holder call.id → holder = ended := by
        intro holder hasId
        cases announced with
        | none => exact absurd hasId (unused rfl holder)
        | some announcedId =>
          cases sameId announcedId rfl
          exact distinct holder ended call.id hasId (.inl ⟨wireIndex, isOpen.1⟩)
      simp only [hasId_snoc_end]
      rintro (earlier | ⟨rfl, rfl⟩) (otherEarlier | ⟨rfl, isId⟩)
      · exact distinct index other id earlier otherEarlier
      · exact known index (isId ▸ earlier)
      · exact (known other otherEarlier).symm
      · rfl
    | _ => exact absurd rfl unmarked

theorem agree_of_fits {Report : Type} (report : Report → AssistantEvent)
    (injective : report.Injective) (everywhere : Everywhere Fits events)
    (repeats : ∀ {seen one}, Fits seen (report one) → ∀ other, report other ∈ seen → other = one) :
    ∀ one other, report one ∈ events → report other ∈ events → one = other := by
  refine everywhere.induction ?_ ?_
  · simp
  · intro seen event _ fits agree one other
    simp only [mem_append, mem_singleton]
    rintro (earlier | rfl) (otherEarlier | same)
    · exact agree one other earlier otherEarlier
    · subst same
      exact repeats fits one earlier
    · exact (repeats fits other otherEarlier).symm
    · exact (injective same).symm

theorem addressed_of_fits {index : ContentIndex} {accepts : BlockStart → Bool}
    (fits : Fits seen event) (addressed : event.addresses? = some (index, accepts)) :
    ∃ start, IsOpen seen index start ∧ accepts start = true := by
  cases event <;> cases addressed
  case textDelta | textEnd => exact ⟨.text, fits.2, rfl⟩
  case thinkingDelta | thinkingEnd => exact ⟨.thinking, fits.2, rfl⟩
  case thinkingOpaque => exact ⟨.thinking, fits.2.1, rfl⟩
  case refusalDelta | refusalEnd => exact ⟨.refusal, fits.2, rfl⟩
  case toolCallDelta wireIndex _ _ =>
      rcases fits.2 with ⟨id, isOpen⟩
      exact ⟨.toolCall wireIndex id, isOpen, by simp⟩
  case toolCallEnd =>
      rcases fits.2 with ⟨wireIndex, id, isOpen, _⟩
      exact ⟨.toolCall wireIndex id, isOpen, rfl⟩

theorem started_of_addresses {index : ContentIndex} {accepts : BlockStart → Bool}
    (everywhere : Everywhere Fits events) (member : event ∈ events)
    (addressed : event.addresses? = some (index, accepts)) :
    ∃ start, (index, start) ∈ startsOf events ∧ accepts start = true := by
  rcases append_of_mem member with ⟨before, after, rfl⟩
  rcases addressed_of_fits (everywhere before event after rfl) addressed with
    ⟨start, isOpen, isKind⟩
  exact ⟨start, mem_startsOf_append isOpen.1 _, isKind⟩

theorem grammar_of_fits (everywhere : Everywhere Fits events)
    (isDone : ∃ reason, .done reason ∈ events) : EventGrammar events where
  start before localRequestId providerRequestId generationId after split :=
    (everywhere _ _ _ split).2
  numbered := numbered_of_fits everywhere
  addressed before event after index accepts split addressed :=
    addressed_of_fits (everywhere _ _ _ split) addressed
  opaqueOnce before index opaqueState after split := (everywhere _ _ _ split).2.2
  wireIndexes := wireIndexes_of_fits everywhere
  ids := ids_of_fits everywhere
  calls := by
    intro before index call after split
    rcases everywhere _ _ _ split with ⟨_, wireIndex, id, isOpen, sameId, _, sameTexts⟩
    refine ⟨?_, sameTexts⟩
    intro otherWire otherId asTool
    have earlier : Everywhere Fits before := (split ▸ everywhere).of_append
    cases start_unique_of_numbered (numbered_of_fits earlier) isOpen.1 asTool
    exact sameId otherId rfl
  usage := agree_of_fits .usage (fun _ _ => AssistantEvent.usage.inj) everywhere And.right
  usageDetails :=
    agree_of_fits .detailedUsage (fun _ _ => AssistantEvent.detailedUsage.inj) everywhere And.right
  done := by
    rcases isDone with ⟨reason, member⟩
    rcases append_of_mem member with ⟨body, after, split⟩
    cases after with
    | nil =>
      rcases everywhere _ _ _ split with ⟨noneBefore, fits⟩
      exact ⟨body, reason, split, noneBefore, fits⟩
    | cons event after =>
      -- nothing fits after `Done`
      have later := everywhere (body ++ [.done reason]) event after (by simp [split])
      exact absurd (mem_append_right _ (mem_singleton.mpr rfl)) (later.1 reason)

theorem callTexts_of_fits (everywhere : Everywhere Fits events) :
    ∀ index call, .toolCallEnd index call ∈ events →
      textOf events .toolName index = call.name.value ∧
        textOf events .toolArguments index = call.arguments.rawJson := by
  refine everywhere.induction ?_ ?_
  · simp
  · intro seen event _ fits texts index call member
    have silent : ∀ kind, kind = .toolName ∨ kind = .toolArguments →
        ∀ delta, event.fragment? kind ≠ some (index, delta) := by
      rintro kind isTool delta carried
      rcases mem_append.mp member with earlier | now
      · have ended : index ∈ endsOf seen := mem_filterMap.mpr ⟨_, earlier, rfl⟩
        cases event with
        | toolCallDelta at' wireIndex nameDelta argumentsDelta =>
          rcases fits.2 with ⟨id, isOpen⟩
          rcases isTool with rfl | rfl <;> cases carried <;> exact isOpen.2 ended
        | _ => rcases isTool with rfl | rfl <;> cases carried
      · rw [← mem_singleton.mp now] at carried
        rcases isTool with rfl | rfl <;> cases carried
    rw [textOf_snoc_other _ (silent .toolName (.inl rfl)),
      textOf_snoc_other _ (silent .toolArguments (.inr rfl))]
    rcases mem_append.mp member with earlier | now
    · exact texts index call earlier
    · rw [← mem_singleton.mp now] at fits
      rcases fits.2 with ⟨_, _, _, _, _, sameTexts⟩
      exact sameTexts

/-! ## Every event of the grammar fits -/

namespace EventGrammar

variable {before after : List AssistantEvent}

theorem not_done (grammar : EventGrammar events) (split : events = before ++ event :: after) :
    ∀ reason, .done reason ∉ before := by
  rcases grammar.done with ⟨body, last, isBody, noneBefore, _⟩
  intro reason member
  rcases append_eq_append_iff.mp (split.symm.trans isBody) with
    ⟨_, rfl, _⟩ | ⟨_ | _, rfl, isLast⟩
  · exact noneBefore reason (mem_append_left _ member)
  · exact noneBefore reason (append_nil body ▸ member)
  · simp at isLast

theorem numbered_split (grammar : EventGrammar events)
    (split : events = before ++ event :: after) :
    (startsOf before).map (fun started => started.1.toNat) =
        range (startsOf before).length ∧
      ∀ index start, event.starts? = some (index, start) →
        index.toNat = (startsOf before).length := by
  have starts : startsOf events =
      startsOf before ++ (event.starts?.toList ++ startsOf after) := by
    simp only [startsOf, split, filterMap_append, filterMap_cons]
    cases event.starts? <;> rfl
  have numbered := grammar.numbered
  rw [starts, map_append, length_append, range_add] at numbered
  rcases append_inj numbered (by simp) with ⟨earlier, later⟩
  refine ⟨earlier, ?_⟩
  intro index start started
  simp only [started, Option.toList_some, cons_append, nil_append, map_cons,
    length_cons, range_succ_eq_map, Nat.add_zero, cons.injEq] at later
  exact later.1

theorem started_of_hasId (grammar : EventGrammar events)
    (split : events = before ++ event :: after) {index : ContentIndex} {id : ToolCallId}
    (hasId : HasId before index id) : ∃ start, (index, start) ∈ startsOf before := by
  rcases hasId with ⟨wireIndex, started⟩ | ⟨call, member, _⟩
  · exact ⟨_, started⟩
  · rcases append_of_mem member with ⟨earlier, later, rfl⟩
    rcases grammar.addressed earlier (.toolCallEnd index call) (later ++ event :: after) index _
      (by simp [split]) rfl with ⟨start, isOpen, _⟩
    exact ⟨start, mem_startsOf_append isOpen.1 _⟩

theorem hasId_split (split : events = before ++ event :: after) {index : ContentIndex}
    {id : ToolCallId} (hasId : HasId before index id) : HasId events index id := by
  rcases hasId with ⟨wireIndex, started⟩ | ⟨call, member, isId⟩
  · exact .inl ⟨wireIndex, split ▸ mem_startsOf_append started _⟩
  · exact .inr ⟨call, split ▸ mem_append_left _ member, isId⟩

theorem started_split (split : events = before ++ event :: after) {index : ContentIndex}
    {start : BlockStart} (started : event.starts? = some (index, start)) :
    (index, start) ∈ startsOf events :=
  mem_filterMap.mpr ⟨event, by simp [split], started⟩

theorem toolCallStart_fits {index : ContentIndex} {wireIndex : WireToolIndex}
    {id : Option ToolCallId} (grammar : EventGrammar events)
    (split : events = before ++ .toolCallStart index wireIndex id :: after) :
    (∀ other otherId, (other, .toolCall wireIndex otherId) ∉ startsOf before) ∧
      ∀ known ∈ id, ∀ other, ¬ HasId before other known := by
  rcases grammar.numbered_split split with ⟨numbered, isNext⟩
  have notEarlier : ∀ start, (index, start) ∉ startsOf before := by
    intro start started
    have below := index_lt_of_numbered numbered started
    rw [isNext index _ rfl] at below
    exact Nat.lt_irrefl _ below
  constructor
  · intro other otherId earlier
    have within : (other, .toolCall wireIndex otherId) ∈ startsOf events :=
      split ▸ mem_startsOf_append earlier _
    cases grammar.wireIndexes other index wireIndex otherId id within (started_split split rfl)
    exact notEarlier _ earlier
  · intro known isId other hasId
    cases isId
    have same := grammar.ids other index known (hasId_split split hasId)
      (.inl ⟨wireIndex, started_split split rfl⟩)
    subst same
    rcases grammar.started_of_hasId split hasId with ⟨start, started⟩
    exact notEarlier start started

theorem toolCallEnd_fits {index : ContentIndex} {call : ToolCall} (grammar : EventGrammar events)
    (split : events = before ++ .toolCallEnd index call :: after) :
    ∃ wireIndex id, IsOpen before index (.toolCall wireIndex id) ∧
      (∀ known ∈ id, known = call.id) ∧ (id = none → ∀ other, ¬ HasId before other call.id) ∧
        textOf before .toolName index = call.name.value ∧
          textOf before .toolArguments index = call.arguments.rawJson := by
  rcases grammar.calls _ _ _ _ split with ⟨sameId, sameTexts⟩
  rcases grammar.addressed _ _ _ _ _ split rfl with ⟨start, isOpen, isTool⟩
  cases start with
  | toolCall wireIndex id =>
    refine ⟨wireIndex, id, isOpen, ?_, ?_, sameTexts⟩
    · rintro known rfl
      exact sameId wireIndex known isOpen.1
    · rintro rfl other hasId
      have same := grammar.ids other index call.id (hasId_split split hasId)
        (.inr ⟨call, by simp [split], rfl⟩)
      subst same
      rcases hasId with ⟨otherWire, asTool⟩ | ⟨otherCall, member, _⟩
      · cases start_unique_of_numbered (grammar.numbered_split split).1 isOpen.1 asTool
      · exact isOpen.2 (mem_filterMap.mpr ⟨_, member, rfl⟩)
  | text | thinking | refusal => cases isTool

theorem fits (grammar : EventGrammar events) : Everywhere Fits events := by
  intro before event after split
  refine ⟨grammar.not_done split, ?_⟩
  have isNext := (grammar.numbered_split split).2
  have addressed := grammar.addressed before event after
  cases event with
  | start => exact grammar.start _ _ _ _ _ split
  | textStart index => exact isNext index .text rfl
  | thinkingStart index => exact isNext index .thinking rfl
  | refusalStart index => exact isNext index .refusal rfl
  | toolCallStart index wireIndex id => exact ⟨isNext index _ rfl, grammar.toolCallStart_fits split⟩
  | textDelta index | textEnd index | thinkingDelta index | thinkingEnd index
  | refusalDelta index | refusalEnd index =>
    rcases addressed index _ split rfl with ⟨start, isOpen, isKind⟩
    cases of_decide_eq_true isKind
    exact isOpen
  | thinkingOpaque index opaqueState =>
    rcases addressed index _ split rfl with ⟨start, isOpen, isKind⟩
    cases of_decide_eq_true isKind
    exact ⟨isOpen, grammar.opaqueOnce _ _ _ _ split⟩
  | toolCallDelta index wireIndex =>
    rcases addressed index _ split rfl with ⟨start, isOpen, isKind⟩
    cases start with
    | toolCall expected id =>
      cases of_decide_eq_true isKind
      exact ⟨id, isOpen⟩
    | text | thinking | refusal => cases isKind
  | toolCallEnd => exact grammar.toolCallEnd_fits split
  | usage reported =>
    intro other member
    exact grammar.usage other reported (by simp [split, member]) (by simp [split])
  | detailedUsage reported =>
    intro other member
    exact grammar.usageDetails other reported (by simp [split, member]) (by simp [split])
  | done reason =>
    rcases grammar.done with ⟨body, last, isBody, noneBefore, whole⟩
    rcases eq_nil_or_concat after with rfl | ⟨rest, final, rfl⟩
    · rcases append_inj' (split.symm.trans isBody) rfl with ⟨rfl, sameDone⟩
      cases sameDone
      exact whole
    · have same : (before ++ .done reason :: rest) ++ [final] = body ++ [.done last] := by
        rw [← isBody, split]
        simp
      have shorter := (append_inj' same rfl).1
      exact absurd (shorter ▸ mem_append_right _ mem_cons_self) (noneBefore reason)

theorem all_ended (grammar : EventGrammar events) :
    ∀ index start, (index, start) ∈ startsOf events → index ∈ endsOf events := by
  rcases grammar.done with ⟨body, reason, rfl, _, allEnded, _⟩
  rw [startsOf_snoc_none rfl, endsOf_snoc_none rfl]
  exact allEnded

end EventGrammar

theorem eventGrammar_iff :
    EventGrammar events ↔ Everywhere Fits events ∧ ∃ reason, .done reason ∈ events := by
  constructor
  · intro grammar
    rcases grammar.done with ⟨body, reason, rfl, _⟩
    exact ⟨grammar.fits, reason, by simp⟩
  · rintro ⟨everywhere, isDone⟩
    exact grammar_of_fits everywhere isDone

end Everywhere

end Philo
