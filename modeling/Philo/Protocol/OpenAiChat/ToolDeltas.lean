import Philo.Protocol.OpenAiChat.Content

/-! Tool calls: the first delta of a call, the later ones, and its completion. With them
the collector takes the events of every step. -/

namespace Philo.OpenAiChat

open Result Std Collector Function ToolCallAccumulator

variable {Schema : Type} {announced : Announced} {machine next : ChatStateMachine Schema}
  {collector : Collector} {tools : ToolCallAccumulator} {wireIndex : WireToolIndex}
  {pending pending' : PendingToolCall}

/-! ## Registering ids -/

variable {id : Option ToolCallId} {events : List AssistantEvent} {library : WireLibrary Schema}
  {delta : ToolCallDeltaWire}

/-- A registered id is one that was registered, or the one of this call. -/
theorem registerOptionalId_eq_ok {registered : ToolCallAccumulator}
    (accepted : tools.registerOptionalId wireIndex id = .ok registered) :
    ∃ seen, registered = { tools with seenProviderCallIds := seen } ∧
      ∀ other owner, lookup seen other = some owner ↔
        lookup tools.seenProviderCallIds other = some owner ∨
          (id = some other ∧ owner = wireIndex) := by
  cases id with
  | none =>
    cases accepted
    exact ⟨tools.seenProviderCallIds, rfl, by simp⟩
  | some id =>
    simp only [registerOptionalId, registerId]
      at accepted
    split at accepted
    · next existing found =>
        simp only [bind_eq_ok, reject_eq_ok, exists_const, ne_eq, not_not,
          Except.ok.injEq] at accepted
        rcases accepted with ⟨rfl, rfl⟩
        refine ⟨tools.seenProviderCallIds, rfl, fun other owner => iff_self_or.mpr ?_⟩
        rintro ⟨⟨⟩, rfl⟩
        exact found
    · next unseen =>
        cases accepted
        replace unseen : lookup tools.seenProviderCallIds id = none := unseen
        refine ⟨_, rfl, fun other owner => ?_⟩
        rw [lookup_insert]
        by_cases same : other = id
        · subst other
          rw [update_self, unseen]
          simp [eq_comm]
        · rw [update_of_ne same]
          simp [Ne.symm same]

namespace ToolsFollow

theorem setPending (follows : ToolsFollow announced tools collector)
    (found : lookup tools.pendingByWireIndex wireIndex = some pending)
    {changed : ToolCallAccumulator} (stored : changed.pendingByWireIndex =
      tools.pendingByWireIndex.insert wireIndex pending')
    (sameOrder : changed.order = tools.order)
    (seenKept : ∀ id owner, lookup tools.seenProviderCallIds id = some owner →
      lookup changed.seenProviderCallIds id = some owner)
    (idKept : ∀ id, pending.providerCallId = some id → pending'.providerCallId = some id)
    (idSeen : ∀ id, pending'.providerCallId = some id →
      lookup changed.seenProviderCallIds id = some wireIndex)
    (endKept : pending.ended = true → pending'.ended = true) :
    ToolsFollow announced changed collector := by
  refine ⟨fun other => ?_, fun other => ?_, fun other item id atOther hasId => ?_,
    fun other item id atOther isAnnounced => ?_, fun id member => ?_⟩
  · rw [sameOrder, stored, mem_insert_found found]
    exact follows.order other
  · rw [stored, mem_insert_found found]
    exact follows.wireIndexes other
  · rw [stored, lookup_insert_eq_some] at atOther
    rcases atOther with ⟨rfl, rfl⟩ | ⟨_, old⟩
    · exact idSeen id hasId
    · exact seenKept id other (follows.registered other item id old hasId)
  · rw [stored, lookup_insert_eq_some] at atOther
    rcases atOther with ⟨rfl, rfl⟩ | ⟨_, old⟩
    · exact idKept id (follows.kept other pending id found isAnnounced)
    · exact follows.kept other item id old isAnnounced
  · rcases follows.ids id member with ⟨other, item, atOther, hasId, either⟩
    rw [stored]
    by_cases same : other = wireIndex
    · subst other
      cases found.symm.trans atOther
      exact ⟨wireIndex, pending', lookup_insert_eq_some.mpr (.inl ⟨rfl, rfl⟩), idKept id hasId,
        either.imp_left endKept⟩
    · exact ⟨other, item, lookup_insert_eq_some.mpr (.inr ⟨same, atOther⟩), hasId, either⟩

theorem insertId (follows : ToolsFollow announced tools collector) {id : ToolCallId}
    (found : lookup tools.pendingByWireIndex wireIndex = some pending)
    (hasId : pending.providerCallId = some id) (ended : pending.ended = true)
    {collected : Collector}
    (sameWireIndexes : collected.toolWireIndexes = collector.toolWireIndexes)
    (grown : ∀ other ∈ collected.toolCallIds, other ∈ collector.toolCallIds ∨ other = id) :
    ToolsFollow announced tools collected where
  order := follows.order
  wireIndexes := by
    rw [sameWireIndexes]
    exact follows.wireIndexes
  registered := follows.registered
  kept := follows.kept
  ids := by
    intro other member
    rcases grown other member with old | rfl
    · exact follows.ids other old
    · exact ⟨wireIndex, pending, found, hasId, .inl ended⟩

/-- Nobody holds an id that is free or about to be registered for a new call. -/
theorem id_unused (follows : ToolsFollow announced tools collector) {id : ToolCallId}
    (isNew : lookup tools.pendingByWireIndex wireIndex = none)
    (ownedHere : ∀ owner, lookup tools.seenProviderCallIds id = some owner →
      owner = wireIndex) :
    id ∉ collector.toolCallIds := by
  intro member
  rcases follows.ids id member with ⟨other, item, atOther, hasId, _⟩
  have here := ownedHere other (follows.registered other item id atOther hasId)
  subst here
  cases isNew.symm.trans atOther

/-- A call that was not announced with an id and has not ended has not given its
id to the collector. -/
theorem late_id_unused (follows : ToolsFollow announced tools collector) {id : ToolCallId}
    (found : lookup tools.pendingByWireIndex wireIndex = some pending)
    (hasId : pending.providerCallId = some id) (notEnded : pending.ended ≠ true)
    (unannounced : announced wireIndex = none) : id ∉ collector.toolCallIds := by
  intro member
  rcases follows.ids id member with ⟨other, item, atOther, itemId, either⟩
  have owner := follows.registered wireIndex pending id found hasId
  cases (follows.registered other item id atOther itemId).symm.trans owner
  cases found.symm.trans atOther
  rcases either with ended | isAnnounced
  · exact notEnded ended
  · cases unannounced.symm.trans isAnnounced

end ToolsFollow

/-! ## The first delta of a call -/

theorem ToolsFollow.start (follows : ToolsFollow announced tools collector)
    {id : Option ToolCallId} {started : ToolCallAccumulator} {collected : Collector}
    (isNew : lookup tools.pendingByWireIndex wireIndex = none)
    (registered : tools.registerOptionalId wireIndex id = .ok started)
    (hasId : pending.providerCallId = id) (order : List WireToolIndex)
    (grownOrder : order = started.order ++ [wireIndex])
    (wireIndexes : collected.toolWireIndexes = collector.toolWireIndexes.insert wireIndex)
    (ids : collected.toolCallIds =
      id.elim collector.toolCallIds collector.toolCallIds.insert) :
    ToolsFollow (update announced wireIndex id)
      { started.setPending wireIndex pending with order } collected := by
  rcases registerOptionalId_eq_ok registered with ⟨seen, rfl, seenIds⟩
  refine ⟨fun other => ?_, fun other => ?_, fun other item known atOther itemId => ?_,
    fun other item known atOther isAnnounced => ?_, fun known member => ?_⟩
  · simp only [grownOrder, ToolCallAccumulator.setPending, List.mem_append,
      List.mem_singleton, mem_insert_iff, follows.order other, or_comm]
  · simp only [wireIndexes, ToolCallAccumulator.setPending, mem_set_insert_iff,
      mem_insert_iff, follows.wireIndexes other, or_comm]
  · rcases lookup_insert_eq_some.mp atOther with ⟨rfl, rfl⟩ | ⟨_, old⟩
    · exact (seenIds known other).mpr (.inr ⟨hasId.symm.trans itemId, rfl⟩)
    · exact (seenIds known other).mpr (.inl (follows.registered other item known old itemId))
  · rcases lookup_insert_eq_some.mp atOther with ⟨rfl, rfl⟩ | ⟨different, old⟩
    · rw [update_self] at isAnnounced
      exact hasId.trans isAnnounced
    · rw [update_of_ne different] at isAnnounced
      exact follows.kept other item known old isAnnounced
  · -- Either the id of this call, which was just announced, or an old one.
    have either : id = some known ∨ known ∈ collector.toolCallIds := by
      rw [ids] at member
      cases id with
      | none => exact .inr member
      | some id =>
        simp only [Option.elim, mem_set_insert_iff] at member
        exact member.symm.imp_left fun same => congrArg some same.symm
    rcases either with rfl | old
    · exact ⟨wireIndex, pending, lookup_insert_eq_some.mpr (.inl ⟨rfl, rfl⟩), hasId,
        .inr (update_self ..)⟩
    · rcases follows.ids known old with ⟨other, item, atOther, itemId, either⟩
      have different : other ≠ wireIndex := by
        rintro rfl
        cases isNew.symm.trans atOther
      exact ⟨other, item, lookup_insert_eq_some.mpr (.inr ⟨different, atOther⟩), itemId,
        by rwa [update_of_ne different]⟩

theorem carried_observeNew {advanced : UInt32} {started : ToolCallAccumulator}
    (follows : Follows announced machine collector)
    (isNew : lookup machine.tools.pendingByWireIndex wireIndex = none)
    (unfinished : machine.finishReason = none)
    (added : checkedAddU32 machine.nextContentIndex 1 = some advanced)
    (observed : machine.tools.observeNew wireIndex (some machine.nextContentIndex) id =
      .ok (started, events)) :
    Carried collector machine
      { machine with nextContentIndex := advanced, tools := started } events := by
  simp only [observeNew, okOr, ok_bind, bind_eq_ok, Except.ok.injEq, Prod.mk.injEq] at observed
  rcases observed with ⟨registeredTools, registered, rfl, rfl⟩
  rcases registerOptionalId_eq_ok registered with ⟨seen, rfl, seenIds⟩
  have newWireIndex : wireIndex ∉ collector.toolWireIndexes := by
    rw [follows.tools.wireIndexes]
    exact not_mem_iff_lookup.mpr isNew
  have newIds : ∀ known ∈ id, known ∉ collector.toolCallIds := by
    intro known isId
    refine follows.tools.id_unused isNew fun owner owned => ?_
    exact Option.some.inj (((seenIds known owner).mpr (.inl owned)).symm.trans
      ((seenIds known wireIndex).mpr (.inr ⟨isId, rfl⟩)))
  let noted : Collector := { collector with
    toolWireIndexes := collector.toolWireIndexes.insert wireIndex
    toolCallIds := id.elim collector.toolCallIds collector.toolCallIds.insert }
  let collected : Collector := { noted with
    nextContentIndex := advanced
    openBlocks := collector.openBlocks.insert machine.nextContentIndex
      (.toolCall wireIndex id "" "") }
  have applied : collector.apply
      (.toolCallStart machine.nextContentIndex wireIndex id) = .ok collected := by
    refine acceptToolCallStart_eq_ok.mpr ⟨newWireIndex, newIds, ?_⟩
    rw [← follows.next] at added
    refine startBlock_eq_ok.mpr ⟨follows.next.symm, ?_, ?_, advanced, added, rfl⟩
    · rw [← follows.next]
      exact follows.sound.next_not_mem.1
    · rw [← follows.next]
      exact follows.sound.next_not_mem.2
  have accepted := follows.acceptAll_one applied
  have nonZero := advanced_ne_zero added
  refine ⟨update announced wireIndex id, collected, accepted, ?_, rfl, rfl⟩
  exact {
    sound := acceptAll_sound follows.sound accepted
    notDone := follows.notDone
    next := rfl
    linked := by
      have vacant : openItems machine (.tool wireIndex) = none := by
        simp [openItems, itemsOf, isNew]
      have renamed := follows.linked.imp (Represents (update announced wireIndex id))
        (by
          intro slot item block atSlot represents
          refine represents.announce id ?_
          rintro rfl
          cases vacant.symm.trans atSlot)
      let opened : OpenItem := .call ⟨wireIndex, machine.nextContentIndex, id, "", "", true, false⟩
      have represents : Represents (update announced wireIndex id)
          (.tool wireIndex) opened (.toolCall wireIndex id "" "") := by
        simp [Represents, opened]
      have inserted := renamed.insert vacant follows.next_vacant rfl represents
      exact inserted.of_eq (itemsOf_insert _ _ _ _ _) (lookup_insert _ _ _)
    tools := follows.tools.start isNew registered rfl _ rfl rfl rfl
    content := fun _ => nonZero
    finished := by
      intro reason finished
      cases unfinished.symm.trans finished }

/-! ## Later deltas and the end of a call -/

/-- One call changes in the machine and in the collector; the other calls, and
which calls there are, stay. -/
theorem Follows.setPending (follows : Follows announced machine collector)
    {changed : ToolCallAccumulator} {collected : Collector}
    (found : lookup machine.tools.pendingByWireIndex wireIndex = some pending)
    (stored : changed.pendingByWireIndex =
      machine.tools.pendingByWireIndex.insert wireIndex pending')
    (sound : collected.Sound) (notDone : collected.done = false)
    (sameNext : collected.nextContentIndex = collector.nextContentIndex)
    (tools : ToolsFollow announced changed collected)
    (linked : Linked OpenItem.index? (Represents announced)
      (update (openItems machine) (.tool wireIndex) pending'.item?)
      (lookup collected.openBlocks)) :
    Follows announced { machine with tools := changed } collected := by
  have sameKeys : ∀ other, other ∈ changed.pendingByWireIndex ↔
      other ∈ machine.tools.pendingByWireIndex := fun other => by
    rw [stored, mem_insert_found found]
  exact {
    sound
    notDone
    next := sameNext.trans follows.next
    linked := by
      rw [openItems, stored, itemsOf_insert]
      exact linked
    tools
    content := by simpa only [sameKeys] using follows.content
    finished := by simpa only [sameKeys] using follows.finished }

theorem Follows.linked_call (pending' : PendingToolCall)
    (follows : Follows announced machine collector) {openBlocks : TreeMap ContentIndex OpenBlock}
    (found : lookup machine.tools.pendingByWireIndex wireIndex = some pending)
    (notEnded : pending.ended ≠ true) (goesOn : pending'.ended = pending.ended)
    (samePlace : pending'.domainContentIndex = pending.domainContentIndex)
    (changed : lookup openBlocks =
      update (lookup collector.openBlocks) pending.domainContentIndex
        (some (.toolCall wireIndex (announced wireIndex) pending'.nameBuffer
          pending'.argumentsBuffer))) :
    Linked OpenItem.index? (Represents announced)
      (update (openItems machine) (.tool wireIndex) pending'.item?)
      (lookup openBlocks) := by
  have held := openItems_tool_of_open found notEnded
  have represents : Represents announced (.tool wireIndex) (.call pending')
      (.toolCall wireIndex (announced wireIndex) pending'.nameBuffer
        pending'.argumentsBuffer) := rfl
  have stillOpen : pending'.item? = some (.call pending') := by
    simp [PendingToolCall.item?, goesOn, notEnded]
  rw [stillOpen, changed]
  exact follows.linked.modify held rfl (congrArg some samePlace) represents

theorem carried_observeKnown {known : ToolCallAccumulator}
    (follows : Follows announced machine collector)
    (found : lookup machine.tools.pendingByWireIndex wireIndex = some pending)
    (observed : machine.tools.observeKnown wireIndex pending id = .ok known) :
    Carried collector machine { machine with tools := known } [] := by
  simp only [observeKnown, bind_eq_ok, reject_eq_ok, exists_const, Except.ok.injEq] at observed
  rcases observed with ⟨notEnded, sameId, registeredTools, registered, rfl⟩
  rcases registerOptionalId_eq_ok registered with ⟨seen, rfl, seenIds⟩
  have held := openItems_tool_of_open found notEnded
  rcases follows.linked.represented _ _ _ held rfl with ⟨_, openAt, rfl⟩
  let filled : PendingToolCall := { pending with providerCallId := pending.providerCallId.or id }
  let changed : ToolCallAccumulator :=
    setPending { machine.tools with seenProviderCallIds := seen }
      wireIndex filled
  have idRegistered : ∀ known, filled.providerCallId = some known →
      lookup seen known = some wireIndex := by
    intro known hasId
    rcases Option.or_eq_some_iff.mp hasId with old | ⟨_, arrived⟩
    · exact (seenIds known wireIndex).mpr
        (.inl (follows.tools.registered wireIndex pending known found old))
    · exact (seenIds known wireIndex).mpr (.inr ⟨arrived, rfl⟩)
  have idKept : ∀ known, pending.providerCallId = some known →
      filled.providerCallId = some known := by
    intro known hasId
    simp [filled, hasId]
  have tools : ToolsFollow announced changed collector :=
    follows.tools.setPending found rfl rfl (fun id owner seen => (seenIds id owner).mpr (.inl seen))
      idKept idRegistered fun ended => ended
  have linked := follows.linked_call filled found notEnded rfl rfl
    (update_eq_self_iff.mpr openAt.symm).symm
  exact (follows.setPending found rfl follows.sound follows.notDone rfl tools
    linked).carried_nil rfl

theorem appendName_eq_ok {named : PendingToolCall} {name : Option String}
    (appended : appendName pending name = .ok named) :
    (∀ fragment, name = some fragment →
        saturatingAdd (Text.len pending.nameBuffer) (Text.len fragment) ≤ ToolName.maxBytes) ∧
      named = { pending with nameBuffer := pending.nameBuffer ++ name.getD "" } := by
  cases name with
  | none =>
    cases appended
    simp
  | some fragment =>
    simp only [appendName, bind_eq_ok, reject_eq_ok, exists_const, Except.ok.injEq] at appended
    rcases appended with ⟨fits, rfl⟩
    constructor
    · rintro other ⟨rfl⟩
      exact Nat.not_lt.mp fits
    · rfl

theorem appendFragments_eq_ok {compat : ToolArgumentsCompat} {changed : ToolCallAccumulator}
    (appended : appendFragments library tools wireIndex delta compat =
      .ok (changed, events)) :
    ∃ pending arguments total, lookup tools.pendingByWireIndex wireIndex = some pending ∧
      pending.ended ≠ true ∧
      (∀ fragment, nameDelta delta = some fragment →
        saturatingAdd (Text.len pending.nameBuffer) (Text.len fragment) ≤ ToolName.maxBytes) ∧
      (∀ fragment, arguments = some fragment →
        saturatingAdd (Text.len pending.argumentsBuffer) (Text.len fragment) ≤
          tools.limits.maxToolArgumentsBytes ∧
        total = saturatingAdd tools.totalArgumentBytes (Text.len fragment) ∧
          total ≤ tools.limits.maxAllToolArgumentsBytes) ∧
      (arguments = none → total = tools.totalArgumentBytes) ∧
      changed = { tools.setPending wireIndex { pending with
          nameBuffer := pending.nameBuffer ++ (nameDelta delta).getD ""
          argumentsBuffer := pending.argumentsBuffer ++ arguments.getD "" } with
        totalArgumentBytes := total } ∧
      events = if nameDelta delta = none ∧ arguments = none then []
        else [.toolCallDelta pending.domainContentIndex wireIndex
          (nameDelta delta) arguments] := by
  simp only [appendFragments, bind_eq_ok, okOr_eq_ok, reject_eq_ok,
    exists_const, Prod.exists, Except.ok.injEq, Prod.mk.injEq] at appended
  rcases appended with ⟨pending, found, notEnded, arguments, _, named, nameAppended, grown,
    total, argumentsAppended, rfl, rfl⟩
  rcases appendName_eq_ok nameAppended with ⟨nameFits, rfl⟩
  refine ⟨pending, arguments, total, found, notEnded, nameFits, ?_⟩
  cases arguments with
  | none =>
    cases argumentsAppended
    simp
  | some fragment =>
    simp only [appendArguments, bind_eq_ok, reject_eq_ok, exists_const,
      Except.ok.injEq, Prod.mk.injEq, Nat.not_lt] at argumentsAppended
    rcases argumentsAppended with ⟨fits, allFit, rfl, rfl⟩
    simpa using ⟨fits, allFit⟩

/-- The fragments extend the call and the collector's block alike. -/
theorem carried_appendFragments {compat : ToolArgumentsCompat} {changed : ToolCallAccumulator}
    (follows : Follows announced machine collector)
    (appended : appendFragments library machine.tools wireIndex delta
      compat = .ok (changed, events)) :
    Carried collector machine { machine with tools := changed } events := by
  rcases appendFragments_eq_ok appended with
    ⟨pending, arguments, total, found, notEnded, _, _, _, rfl, rfl⟩
  let name := nameDelta delta
  let grown : PendingToolCall := { pending with
    nameBuffer := pending.nameBuffer ++ name.getD ""
    argumentsBuffer := pending.argumentsBuffer ++ arguments.getD "" }
  let changed : ToolCallAccumulator :=
    { machine.tools.setPending wireIndex grown with totalArgumentBytes := total }
  have held := openItems_tool_of_open found notEnded
  rcases follows.linked.represented _ _ _ held rfl with ⟨_, openAt, rfl⟩
  have tools : ToolsFollow announced changed collector :=
    follows.tools.setPending found rfl rfl (fun _ _ seen => seen) (fun _ hasId => hasId)
      (fun id hasId => follows.tools.registered wireIndex pending id found hasId)
      fun ended => ended
  split
  · next silent =>
      -- Nothing was appended, so the collector's block is up to date.
      have upToDate : lookup collector.openBlocks = update
          (lookup collector.openBlocks) pending.domainContentIndex (some (.toolCall wireIndex
            (announced wireIndex) grown.nameBuffer grown.argumentsBuffer)) := by
        rw [eq_comm, update_eq_self_iff, openAt]
        simp [grown, name, silent.1, silent.2]
      have linked := follows.linked_call grown found notEnded rfl rfl upToDate
      exact (follows.setPending found rfl follows.sound follows.notDone rfl tools
        linked).carried_nil rfl
  · have applied := (@apply_extended _ _ (.toolCallDelta _ _ name arguments) _ rfl).mpr
      ⟨_, _, openAt, if_pos rfl, rfl⟩
    have accepted := follows.acceptAll_one applied
    have linked := follows.linked_call grown found notEnded rfl rfl (lookup_insert _ _ _)
    have sound := acceptAll_sound follows.sound accepted
    exact ⟨announced, _, accepted, follows.setPending found rfl sound follows.notDone rfl
      (tools.congr rfl rfl) linked, rfl, rfl⟩

/-! ## Completion -/

theorem completeCall_eq_ok {limits : ResponseLimits} {call : ToolCall}
    (completed : completeCall library limits pending = .ok call) :
    pending.providerCallId = some call.id ∧ pending.nameBuffer = call.name.value ∧
      pending.argumentsBuffer = call.arguments.rawJson := by
  simp only [completeCall, bind_eq_ok, okOr_eq_ok, reject_eq_ok,
    exists_const, mapError_eq_ok, Except.ok.injEq] at completed
  rcases completed with ⟨id, hasId, _, name, named, arguments, parsed, _, rfl⟩
  exact ⟨hasId, (ToolName.new_eq_ok named).symm, (ToolArguments.rawJson_fromRawJson parsed).symm⟩

theorem carried_finishCall {finished : ToolCallAccumulator} {event : AssistantEvent}
    (follows : Follows announced machine collector)
    (ended : finishCall library machine.tools wireIndex =
      .ok (finished, event)) :
    Carried collector machine { machine with tools := finished } [event] := by
  simp only [finishCall, bind_eq_ok, okOr_eq_ok, reject_eq_ok,
    exists_const, Except.ok.injEq, Prod.mk.injEq] at ended
  rcases ended with ⟨pending, found, notEnded, call, completed, rfl, rfl⟩
  replace found : lookup machine.tools.pendingByWireIndex wireIndex = some pending := found
  rcases completeCall_eq_ok completed with ⟨hasId, sameName, sameArguments⟩
  have held := openItems_tool_of_open found notEnded
  rcases follows.linked.represented _ _ _ held rfl with ⟨_, openAt, rfl⟩
  rw [sameName] at openAt
  have sameId : ∀ known ∈ announced wireIndex, known = call.id := by
    intro known isAnnounced
    have kept := follows.tools.kept wireIndex pending known found isAnnounced
    exact Option.some.inj (kept.symm.trans hasId)
  have applied := apply_toolCallEnd follows.sound openAt sameId
    (follows.tools.late_id_unused found hasId notEnded) sameArguments
  have accepted := follows.acceptAll_one applied
  have sound := acceptAll_sound follows.sound accepted
  let closed : PendingToolCall := { pending with ended := true }
  let changed : ToolCallAccumulator := machine.tools.setPending wireIndex closed
  have tools : ToolsFollow announced changed collector :=
    follows.tools.setPending found rfl rfl (fun _ _ seen => seen) (fun _ hasId => hasId)
      (fun id hasId => follows.tools.registered wireIndex pending id found hasId)
      fun _ => rfl
  have atCall : lookup changed.pendingByWireIndex wireIndex = some closed := by
    simp [changed, setPending, lookup_insert]
  refine ⟨announced, _, accepted, follows.setPending found rfl sound follows.notDone rfl
    (tools.insertId atCall hasId rfl rfl ?_) ?_, rfl, rfl⟩
  · intro other member
    simp only [close, idsAfterEnd] at member
    cases isAnnounced : announced wireIndex with
    | none =>
      simp only [isAnnounced, Option.elim, mem_set_insert_iff] at member
      exact member
    | some known =>
      simp only [isAnnounced, Option.elim] at member
      exact .inl member
  · exact (follows.linked.erase held rfl).of_eq rfl (lookup_erase _ _)

/-! ## Every step -/

theorem carried_finish {reason : FinishReason} (follows : Follows announced machine collector)
    (complete : Complete machine reason) :
    Carried collector machine { machine with finishReason := some reason } [] := by
  have someCall : machine.tools.isEmpty = false ↔
      ∃ wireIndex, wireIndex ∈ machine.tools.pendingByWireIndex := by
    rw [← Bool.not_eq_true, follows.tools.isEmpty_iff, not_not]
  refine ⟨announced, collector, rfl, ?_, rfl, rfl⟩
  exact {
    sound := follows.sound
    notDone := follows.notDone
    next := follows.next
    linked := follows.linked
    tools := follows.tools
    content := follows.content
    finished := by
      rintro _ ⟨⟩
      exact ⟨follows.content (complete.content.imp_right (Or.imp_right someCall.mp)),
        complete.tools.trans someCall⟩ }

theorem Step.carried (step : Step library machine next events)
    (follows : Follows announced machine collector) : Carried collector machine next events := by
  cases step with
  | openText notStarted added => exact carried_openText follows notStarted added
  | text isOpen => exact carried_text follows isOpen
  | closeText isOpen => exact carried_closeText follows isOpen
  | openRefusal notStarted added => exact carried_openRefusal follows notStarted added
  | refusal isOpen content => exact carried_refusal follows isOpen content
  | closeRefusal isOpen => exact carried_closeRefusal follows isOpen
  | observe unfinished observes =>
    cases observes with
    | known found observed => exact carried_observeKnown follows found observed
    | started isNew _ added observed =>
      exact carried_observeNew follows isNew unfinished added observed
  | fragments appended => exact carried_appendFragments follows appended
  | endCall ended => exact carried_finishCall follows ended
  | finish complete => exact carried_finish follows complete

theorem Steps.carried (steps : Steps library machine next events)
    (follows : Follows announced machine collector) : Carried collector machine next events := by
  induction steps with
  | refl => exact follows.carried_nil rfl
  | tail _ step induction => exact induction.append fun _ _ follows => step.carried follows

end Philo.OpenAiChat
