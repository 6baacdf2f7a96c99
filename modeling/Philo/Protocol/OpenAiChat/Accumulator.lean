import Philo.Foundation.KeyedText
import Philo.Protocol.OpenAiChat.ToolDeltas

/-! What the tool call accumulator holds after any sequence of tool call deltas. -/

namespace Philo.OpenAiChat

open Result Std KeyedText ChatStateMachine Function List

variable {Schema : Type}

/-! ## What was emitted -/

def namePieces (events : List AssistantEvent) : List (WireToolIndex × String) :=
  events.filterMap fun
    | .toolCallDelta _ wireIndex (some name) _ => some (wireIndex, name)
    | _ => none

def argumentPieces (events : List AssistantEvent) : List (WireToolIndex × String) :=
  events.filterMap fun
    | .toolCallDelta _ wireIndex _ (some arguments) => some (wireIndex, arguments)
    | _ => none

def startedCalls (events : List AssistantEvent) : List WireToolIndex :=
  events.filterMap fun
    | .toolCallStart _ wireIndex _ => some wireIndex
    | _ => none

def nameAt (wireIndex : WireToolIndex) (events : List AssistantEvent) : String :=
  joinedAt wireIndex (namePieces events)

def argumentsAt (wireIndex : WireToolIndex) (events : List AssistantEvent) : String :=
  joinedAt wireIndex (argumentPieces events)

variable {events seen : List AssistantEvent} {library : WireLibrary Schema}
  {machine : ChatStateMachine Schema} {limits : ResponseLimits}

theorem nameAt_append (wireIndex : WireToolIndex) (first second : List AssistantEvent) :
    nameAt wireIndex (first ++ second) = nameAt wireIndex first ++ nameAt wireIndex second := by
  rw [nameAt, namePieces, filterMap_append, joinedAt_append]
  rfl

theorem argumentsAt_append (wireIndex : WireToolIndex) (first second : List AssistantEvent) :
    argumentsAt wireIndex (first ++ second) =
      argumentsAt wireIndex first ++ argumentsAt wireIndex second := by
  rw [argumentsAt, argumentPieces, filterMap_append, joinedAt_append]
  rfl

theorem startedCalls_append (first second : List AssistantEvent) :
    startedCalls (first ++ second) = startedCalls first ++ startedCalls second :=
  filterMap_append ..

theorem fragments_at (other wireIndex : WireToolIndex) (index : ContentIndex)
    (name arguments : Option String) : let events := if name = none ∧ arguments = none then []
      else [AssistantEvent.toolCallDelta index wireIndex name arguments]
    nameAt other events = (if other = wireIndex then name.getD "" else "") ∧
      argumentsAt other events = (if other = wireIndex then arguments.getD "" else "") ∧
      startedCalls events = [] := by
  by_cases same : other = wireIndex
  · subst other
    cases name <;> cases arguments <;>
      simp [nameAt, argumentsAt, namePieces, argumentPieces, startedCalls, joinedAt_same]
  · cases name <;> cases arguments <;>
      simp [nameAt, argumentsAt, namePieces, argumentPieces, startedCalls, same,
        joinedAt_other (Ne.symm same)]

/-! ## The invariant -/

def ToolCallAccumulator.argumentBytes (tools : ToolCallAccumulator) : Nat :=
  tableSum (fun pending => Text.len pending.argumentsBuffer) tools.pendingByWireIndex

def buffers (call : Option PendingToolCall) : String × String :=
  call.elim ("", "") fun pending => (pending.nameBuffer, pending.argumentsBuffer)

/-- The accumulator after it emitted the events. Byte counts saturate at the largest
`usize`. -/
structure Accumulated (limits : ResponseLimits) (tools : ToolCallAccumulator)
    (seen : List AssistantEvent) : Prop where
  sameLimits : tools.limits = limits
  nodup : tools.order.Nodup
  order : ∀ wireIndex, wireIndex ∈ tools.order ↔ wireIndex ∈ tools.pendingByWireIndex
  started : tools.order = startedCalls seen
  ids : ∀ id wireIndex, lookup tools.seenProviderCallIds id = some wireIndex ↔
    ∃ pending, lookup tools.pendingByWireIndex wireIndex = some pending ∧
      pending.providerCallId = some id
  names : ∀ wireIndex pending, lookup tools.pendingByWireIndex wireIndex = some pending →
    Text.len pending.nameBuffer ≤ ToolName.maxBytes
  total : tools.totalArgumentBytes = min tools.argumentBytes (2 ^ 64 - 1)
  each : ∀ wireIndex pending, lookup tools.pendingByWireIndex wireIndex = some pending →
    min (Text.len pending.argumentsBuffer) (2 ^ 64 - 1) ≤ limits.maxToolArgumentsBytes
  all : tools.totalArgumentBytes ≤ limits.maxAllToolArgumentsBytes
  calls : tools.order.length ≤ limits.maxToolCalls
  emitted : ∀ wireIndex, buffers (lookup tools.pendingByWireIndex wireIndex) =
    (nameAt wireIndex seen, argumentsAt wireIndex seen)

namespace Accumulated

variable {limits : ResponseLimits} {tools changed : ToolCallAccumulator}
  {seen : List AssistantEvent} {wireIndex : WireToolIndex} {pending : PendingToolCall}

theorem new (limits : ResponseLimits) : Accumulated limits (.new limits) [] where
  sameLimits := rfl
  nodup := nodup_nil
  order := by simp [ToolCallAccumulator.new]
  started := rfl
  ids := by simp [ToolCallAccumulator.new, lookup_empty]
  names := by simp [ToolCallAccumulator.new, lookup_empty]
  total := rfl
  each := by simp [ToolCallAccumulator.new, lookup_empty]
  all := Nat.zero_le _
  calls := Nat.zero_le _
  emitted := by
    intro wireIndex
    rw [ToolCallAccumulator.new, lookup_empty]
    rfl

/-- A known call changes: its id may be filled in, and its buffers may grow by what the
events carry. -/
theorem replace {pending' : PendingToolCall} {name arguments : String}
    (accumulated : Accumulated limits tools seen)
    (found : lookup tools.pendingByWireIndex wireIndex = some pending)
    (stored : changed.pendingByWireIndex = tools.pendingByWireIndex.insert wireIndex pending')
    (sameLimits : changed.limits = tools.limits) (sameOrder : changed.order = tools.order)
    (keptId : ∀ id, pending.providerCallId = some id → pending'.providerCallId = some id)
    (ids : ∀ id owner, lookup changed.seenProviderCallIds id = some owner ↔
      lookup tools.seenProviderCallIds id = some owner ∨
        (pending'.providerCallId = some id ∧ owner = wireIndex))
    (grownName : pending'.nameBuffer = pending.nameBuffer ++ name)
    (grownArguments : pending'.argumentsBuffer = pending.argumentsBuffer ++ arguments)
    (carried : ∀ other, nameAt other events = (if other = wireIndex then name else "") ∧
      argumentsAt other events = (if other = wireIndex then arguments else "") ∧
      startedCalls events = [])
    (nameFits : Text.len pending'.nameBuffer ≤ ToolName.maxBytes)
    (total : changed.totalArgumentBytes =
      saturatingAdd tools.totalArgumentBytes (Text.len arguments))
    (fits : min (Text.len pending'.argumentsBuffer) (2 ^ 64 - 1) ≤ limits.maxToolArgumentsBytes)
    (allFit : changed.totalArgumentBytes ≤ limits.maxAllToolArgumentsBytes) :
    Accumulated limits changed (seen ++ events) := by
  refine ⟨sameLimits.trans accumulated.sameLimits, sameOrder ▸ accumulated.nodup, ?_, ?_, ?_,
    ?_, ?_, ?_, allFit, sameOrder ▸ accumulated.calls, ?_⟩
  · intro other
    rw [sameOrder, stored, mem_insert_found found, accumulated.order]
  · rw [startedCalls_append, (carried wireIndex).2.2, append_nil, sameOrder, accumulated.started]
  · intro id other
    rw [ids, accumulated.ids, stored, lookup_insert]
    by_cases same : other = wireIndex
    · subst other
      simp only [found, Option.some.injEq, exists_eq_left', and_true, update_self]
      exact or_iff_right_of_imp (keptId id)
    · simp only [same, and_false, or_false, ne_eq, not_false_eq_true, update_of_ne]
  · rw [stored]
    exact forall_lookup_insert nameFits accumulated.names
  · have summed := tableSum_insert_found (fun item => Text.len item.argumentsBuffer) pending' found
    have longer : Text.len pending'.argumentsBuffer =
        Text.len pending.argumentsBuffer + Text.len arguments := by
      rw [grownArguments, Text.len, String.utf8ByteSize_append]
      rfl
    have before := accumulated.total
    rw [ToolCallAccumulator.argumentBytes] at before
    rw [total, saturatingAdd, ToolCallAccumulator.argumentBytes, stored]
    omega
  · rw [stored]
    exact forall_lookup_insert fits accumulated.each
  · intro other
    have before := accumulated.emitted other
    rw [nameAt_append, argumentsAt_append, (carried other).1, (carried other).2.1, stored,
      lookup_insert]
    by_cases same : other = wireIndex
    · subst other
      rw [found] at before
      rcases Prod.mk.inj before with ⟨isName, isArguments⟩
      rw [if_pos rfl, if_pos rfl, update_self, ← isName, ← isArguments, ← grownName,
        ← grownArguments]
      rfl
    · rw [if_neg same, if_neg same, String.append_empty, String.append_empty,
        update_of_ne same, before]

theorem saturatingAdd_zero (accumulated : Accumulated limits tools seen) :
    saturatingAdd tools.totalArgumentBytes 0 = tools.totalArgumentBytes := by
  have bounded := accumulated.total
  rw [saturatingAdd]
  omega

theorem observeKnown {id : Option ToolCallId} (accumulated : Accumulated limits tools seen)
    (found : lookup tools.pendingByWireIndex wireIndex = some pending)
    (observed : tools.observeKnown wireIndex pending id = .ok changed) :
    Accumulated limits changed seen := by
  simp only [ToolCallAccumulator.observeKnown, bind_eq_ok, reject_eq_ok, exists_const,
    Except.ok.injEq] at observed
  rcases observed with ⟨_, sameId, registeredTools, isRegistered, rfl⟩
  rcases registerOptionalId_eq_ok isRegistered with ⟨seenIds, rfl, ids⟩
  rw [← append_nil seen]
  refine accumulated.replace found rfl rfl rfl ?_ ?_ String.append_empty.symm
    String.append_empty.symm (fun other => by simp [nameAt, argumentsAt, namePieces,
      argumentPieces, startedCalls]) (accumulated.names wireIndex pending found)
    accumulated.saturatingAdd_zero.symm (accumulated.each wireIndex pending found) accumulated.all
  · intro known isKnown
    simp [isKnown]
  · intro known owner
    refine (ids known owner).trans ?_
    cases isKnown : pending.providerCallId with
    | none => rw [Option.none_or]
    | some existing =>
      -- An id that is sent again is the one that is registered already.
      have registeredHere : lookup tools.seenProviderCallIds existing = some wireIndex :=
        (accumulated.ids existing wireIndex).mpr ⟨pending, found, isKnown⟩
      have sameAsKnown : id = some known → existing = known := by
        intro isId
        by_contra different
        exact sameId ⟨existing, isKnown, known, isId, different⟩
      rw [Option.some_or, Option.some.injEq]
      constructor
      · rintro (old | ⟨isId, rfl⟩)
        · exact .inl old
        · exact .inr ⟨sameAsKnown isId, rfl⟩
      · rintro (old | ⟨rfl, rfl⟩)
        · exact .inl old
        · exact .inl registeredHere

theorem observeNew {id : Option ToolCallId} {index : Option ContentIndex}
    (accumulated : Accumulated limits tools seen)
    (isNew : lookup tools.pendingByWireIndex wireIndex = none)
    (room : tools.order.length < limits.maxToolCalls)
    (observed : tools.observeNew wireIndex index id = .ok (changed, events)) :
    Accumulated limits changed (seen ++ events) := by
  simp only [ToolCallAccumulator.observeNew, bind_eq_ok, okOr_eq_ok, Except.ok.injEq,
    Prod.mk.injEq] at observed
  rcases observed with ⟨index, _, registeredTools, isRegistered, rfl, rfl⟩
  rcases registerOptionalId_eq_ok isRegistered with ⟨seenIds, rfl, ids⟩
  have absent : wireIndex ∉ tools.order := by
    rw [accumulated.order]
    exact not_mem_iff_lookup.mpr isNew
  refine ⟨accumulated.sameLimits, ?_, ?_, ?_, ?_, ?_, ?_, ?_, accumulated.all, ?_, ?_⟩
  · exact nodup_append.mpr ⟨accumulated.nodup, nodup_singleton _, fun other member
      other' isOther same => absent (by rwa [← mem_singleton.mp isOther, ← same])⟩
  · intro other
    simp only [ToolCallAccumulator.setPending, mem_append, mem_singleton,
      mem_insert_iff, accumulated.order, or_comm]
  · rw [startedCalls_append, ← accumulated.started]
    rfl
  · intro known owner
    refine (ids known owner).trans ?_
    simp only [ToolCallAccumulator.setPending, lookup_insert]
    rw [accumulated.ids]
    by_cases same : owner = wireIndex
    · subst owner
      simp [isNew]
    · simp [same]
  · exact forall_lookup_insert (Nat.zero_le _) accumulated.names
  · change tools.totalArgumentBytes = _
    rw [accumulated.total, ToolCallAccumulator.argumentBytes, ToolCallAccumulator.argumentBytes]
    change _ = min (tableSum _ (tools.pendingByWireIndex.insert _ _)) _
    rw [tableSum_insert_new _ _ isNew, show Text.len "" = 0 from rfl, Nat.zero_add]
  · exact forall_lookup_insert (Nat.zero_le _) accumulated.each
  · rw [length_append]
    exact room
  · intro other
    have before := accumulated.emitted other
    rw [nameAt_append, argumentsAt_append, ToolCallAccumulator.setPending, lookup_insert]
    simp only [nameAt, argumentsAt, namePieces, argumentPieces, filterMap_cons,
      filterMap_nil, joinedAt_nil, String.append_empty]
    by_cases same : other = wireIndex
    · subst other
      rw [isNew] at before
      rwa [update_self]
    · rwa [update_of_ne same]

theorem appendFragments {delta : ToolCallDeltaWire} {compat : ToolArgumentsCompat}
    (accumulated : Accumulated limits tools seen)
    (appended : ToolCallAccumulator.appendFragments library tools wireIndex delta compat =
      .ok (changed, events)) :
    Accumulated limits changed (seen ++ events) := by
  rcases appendFragments_eq_ok appended with
    ⟨pending, arguments, total, found, _, named, counted, uncounted, rfl, rfl⟩
  have registered : ∀ id owner, lookup tools.seenProviderCallIds id = some owner ↔
      lookup tools.seenProviderCallIds id = some owner ∨
        (pending.providerCallId = some id ∧ owner = wireIndex) := by
    refine fun id owner => iff_self_or.mpr ?_
    rintro ⟨hasId, rfl⟩
    exact (accumulated.ids id owner).mpr ⟨pending, found, hasId⟩
  have each := accumulated.each wireIndex pending found
  rw [accumulated.sameLimits] at counted
  have counts : total = saturatingAdd tools.totalArgumentBytes (Text.len (arguments.getD "")) ∧
      min (Text.len (pending.argumentsBuffer ++ arguments.getD "")) (2 ^ 64 - 1) ≤
        limits.maxToolArgumentsBytes ∧ total ≤ limits.maxAllToolArgumentsBytes := by
    cases arguments with
    | none =>
      cases uncounted rfl
      exact ⟨accumulated.saturatingAdd_zero.symm, by simpa using each, accumulated.all⟩
    | some fragment =>
      rcases counted fragment rfl with ⟨fits, sum, allFit⟩
      exact ⟨sum, by simpa [Text.len, saturatingAdd] using fits, allFit⟩
  have nameFits : Text.len (pending.nameBuffer ++
      (ToolCallAccumulator.nameDelta delta).getD "") ≤ ToolName.maxBytes := by
    have before := accumulated.names wireIndex pending found
    cases isName : ToolCallAccumulator.nameDelta delta with
    | none => simpa using before
    | some fragment =>
      have fits := named fragment isName
      simp only [saturatingAdd, ToolName.maxBytes, Text.len, Option.getD_some,
        String.utf8ByteSize_append] at fits ⊢
      omega
  exact accumulated.replace found rfl rfl rfl (fun _ hasId => hasId) registered rfl rfl
    (fun other => fragments_at other wireIndex _ _ _) nameFits counts.1 counts.2.1 counts.2.2

theorem pushToolDelta {next : ChatStateMachine Schema} {delta : ToolCallDeltaWire}
    (accumulated : Accumulated limits machine.tools seen)
    (pushed : pushToolDelta library machine delta = .ok (next, events)) :
    Accumulated limits next.tools (seen ++ events) := by
  rcases pushToolDelta_eq_ok pushed with
    ⟨_, wireIndex, middle, started, _, _, observes, appended, rfl, rfl⟩
  rw [← append_assoc]
  refine Accumulated.appendFragments ?_ appended
  cases observes with
  | known found observed =>
    rw [append_nil]
    exact accumulated.observeKnown found observed
  | started isNew room _ observed =>
    exact accumulated.observeNew isNew (accumulated.sameLimits ▸ room) observed

end Accumulated

/-! ## Sequences of deltas -/

/-- A machine whose accumulator has taken tool call deltas and nothing else, and what it
emitted for them. Whatever else the machine does in between leaves the accumulator alone. -/
inductive ToolDeltasTaken (library : WireLibrary Schema) (limits : ResponseLimits) :
    ChatStateMachine Schema → List AssistantEvent → Prop
  | fresh {machine : ChatStateMachine Schema} (new : machine.tools = .new limits) :
      ToolDeltasTaken library limits machine []
  | pushed {machine next : ChatStateMachine Schema} {seen events : List AssistantEvent}
      (delta : ToolCallDeltaWire) (taken : ToolDeltasTaken library limits machine seen)
      (accepted : pushToolDelta library machine delta = .ok (next, events)) :
      ToolDeltasTaken library limits next (seen ++ events)
  | aside {machine next : ChatStateMachine Schema} {seen : List AssistantEvent}
      (taken : ToolDeltasTaken library limits machine seen)
      (sameTools : next.tools = machine.tools) : ToolDeltasTaken library limits next seen

theorem ToolDeltasTaken.accumulated (taken : ToolDeltasTaken library limits machine seen) :
    Accumulated limits machine.tools seen := by
  induction taken with
  | fresh new =>
    rw [new]
    exact .new limits
  | pushed delta _ accepted induction => exact induction.pushToolDelta accepted
  | aside _ sameTools induction => rwa [sameTools]

theorem ToolDeltasTaken.pushToolDeltas {next : ChatStateMachine Schema}
    {deltas : List ToolCallDeltaWire} (taken : ToolDeltasTaken library limits machine seen)
    (pushed : pushToolDeltas library machine deltas = .ok (next, events)) :
    ToolDeltasTaken library limits next (seen ++ events) := by
  induction deltas generalizing machine seen events with
  | nil =>
    cases pushed
    rwa [append_nil]
  | cons delta rest induction =>
    simp only [pushToolDeltas, bind_eq_ok, Prod.exists, Except.ok.injEq, Prod.mk.injEq] at pushed
    rcases pushed with ⟨middle, first, head, _, later, tail, rfl, rfl⟩
    rw [← append_assoc]
    exact induction (.pushed delta taken head) tail

/-! ## Completion -/

def Completes (tools : ToolCallAccumulator) (seen : List AssistantEvent)
    (wireIndex : WireToolIndex) (event : AssistantEvent) : Prop :=
  ∃ pending call, lookup tools.pendingByWireIndex wireIndex = some pending ∧
    event = .toolCallEnd pending.domainContentIndex call ∧
      pending.providerCallId = some call.id ∧ call.name.value = nameAt wireIndex seen ∧
        call.arguments.rawJson = argumentsAt wireIndex seen

theorem finishCalls_completes {tools current finished : ToolCallAccumulator}
    {order : List WireToolIndex} (accumulated : Accumulated limits tools seen) (nodup : order.Nodup)
    (same : ∀ wireIndex ∈ order, lookup current.pendingByWireIndex wireIndex =
      lookup tools.pendingByWireIndex wireIndex)
    (ended : ToolCallAccumulator.finishCalls library current order = .ok (finished, events)) :
    Forall₂ (Completes tools seen) order events := by
  induction order generalizing current events with
  | nil =>
    cases ended
    exact .nil
  | cons wireIndex rest induction =>
    simp only [ToolCallAccumulator.finishCalls, ToolCallAccumulator.finishCall, bind_eq_ok,
      Prod.exists, okOr_eq_ok, reject_eq_ok, exists_const, Except.ok.injEq, Prod.mk.injEq] at ended
    rcases ended with
      ⟨_, _, ⟨pending, found, _, call, completed, rfl, rfl⟩, _, later, tail, rfl, rfl⟩
    rcases nodup_cons.mp nodup with ⟨absent, nodupRest⟩
    have held : lookup tools.pendingByWireIndex wireIndex = some pending :=
      (same wireIndex (mem_cons_self ..)).symm.trans found
    rcases completeCall_eq_ok completed with ⟨hasId, isName, isArguments⟩
    have emitted := accumulated.emitted wireIndex
    rw [held] at emitted
    rcases Prod.mk.inj emitted with ⟨emittedName, emittedArguments⟩
    refine .cons ⟨pending, call, held, rfl, hasId, isName.symm.trans emittedName,
      isArguments.symm.trans emittedArguments⟩ (induction nodupRest ?_ tail)
    intro other member
    have different : other ≠ wireIndex := fun equal => absent (equal ▸ member)
    rw [ToolCallAccumulator.setPending, lookup_insert, update_of_ne different]
    exact same other (mem_cons_of_mem _ member)

structure Bookkeeping (limits : ResponseLimits) (tools : ToolCallAccumulator)
    (seen : List AssistantEvent) : Prop where
  nodup : tools.order.Nodup
  started : tools.order = startedCalls seen
  order : ∀ wireIndex, wireIndex ∈ tools.order ↔ wireIndex ∈ tools.pendingByWireIndex
  injective : ∀ first second wireIndex,
    lookup tools.seenProviderCallIds first = some wireIndex →
      lookup tools.seenProviderCallIds second = some wireIndex → first = second
  ids : ∀ id wireIndex, lookup tools.seenProviderCallIds id = some wireIndex ↔
    ∃ pending, lookup tools.pendingByWireIndex wireIndex = some pending ∧
      pending.providerCallId = some id
  total : tools.totalArgumentBytes = tools.argumentBytes
  each : ∀ wireIndex pending, lookup tools.pendingByWireIndex wireIndex = some pending →
    Text.len pending.nameBuffer ≤ ToolName.maxBytes ∧
      Text.len pending.argumentsBuffer ≤ limits.maxToolArgumentsBytes
  all : tools.totalArgumentBytes ≤ limits.maxAllToolArgumentsBytes
  calls : tools.order.length ≤ limits.maxToolCalls

/-- After every sequence of tool call deltas that the machine takes, the accumulator's
tables, counts and limits agree, the calls are listed in the order of their
`ToolCallStart` events, and a successful completion emits one `ToolCallEnd` per
call, in that order, with the name and the arguments that were emitted for it. The buffers
are all live strings, so that together they fit the address space. -/
theorem toolDeltas_accumulate (library : WireLibrary Schema) (limits : ResponseLimits)
    (machine : ChatStateMachine Schema) (seen : List AssistantEvent)
    (taken : ToolDeltasTaken library limits machine seen)
    (addressable : machine.tools.argumentBytes < 2 ^ 64) :
    Bookkeeping limits machine.tools seen ∧
      ∀ finished events, machine.tools.finishAll library = .ok (finished, events) →
        Forall₂ (Completes machine.tools seen) machine.tools.order events := by
  have accumulated := taken.accumulated
  refine ⟨⟨accumulated.nodup, accumulated.started, accumulated.order, ?_, accumulated.ids, ?_, ?_,
    accumulated.all, accumulated.calls⟩, ?_⟩
  · intro first second wireIndex isFirst isSecond
    rcases (accumulated.ids first wireIndex).mp isFirst with ⟨pending, found, hasFirst⟩
    rcases (accumulated.ids second wireIndex).mp isSecond with ⟨other, foundOther, hasSecond⟩
    cases found.symm.trans foundOther
    exact Option.some.inj (hasFirst.symm.trans hasSecond)
  · rw [accumulated.total]
    omega
  · intro wireIndex pending found
    have part := tableSum_eq_add (fun item => Text.len item.argumentsBuffer) found
      (lookup_erase machine.tools.pendingByWireIndex wireIndex)
    have each := accumulated.each wireIndex pending found
    rw [ToolCallAccumulator.argumentBytes] at addressable
    exact ⟨accumulated.names wireIndex pending found, by omega⟩
  · intro finished events ended
    exact finishCalls_completes accumulated accumulated.nodup (fun _ _ => rfl) ended

/-! ## Two calls at once -/

def emptyObjectLibrary : WireLibrary Unit where
  fromStr text := if text = "\x7b\x7d" then .ok (.object []) else .error ⟨.syntactic, 1, 1⟩
  render _ := ""
  validateInstance _ _ _ := .ok ()
  chunk _ := .error ⟨.syntactic, 1, 1⟩
  toString _ := .error ⟨.syntactic, 1, 1⟩

def toolDelta (index : Int64) (id name arguments : Option String) : ToolCallDeltaWire :=
  ⟨index, id, some "function", some ⟨name, arguments.map .string, []⟩, []⟩

def alternatingDeltas : List ToolCallDeltaWire :=
  [toolDelta 3 (some "call_a") (some "now") (some "\x7b"),
    toolDelta 1 none (some "then") (some "\x7b\x7d"), toolDelta 3 none none (some "\x7d"),
    toolDelta 1 (some "call_b") none none]

theorem alternatingDeltas_accumulate :
    ∃ machine seen, pushToolDeltas emptyObjectLibrary
        (.new ⟨⟨"local", by decide, by decide⟩, none⟩ .text .official .openAiChatDefault)
        alternatingDeltas = .ok (machine, seen) ∧
      machine.tools.order = [3, 1] ∧ machine.tools.totalArgumentBytes = 4 ∧
      Succeeds (machine.tools.finishAll emptyObjectLibrary) ∧
      Bookkeeping .official machine.tools seen ∧
      ∀ finished events, machine.tools.finishAll emptyObjectLibrary = .ok (finished, events) →
        Forall₂ (Completes machine.tools seen) machine.tools.order events := by
  have accepted : ((pushToolDeltas emptyObjectLibrary
      (.new ⟨⟨"local", by decide, by decide⟩, none⟩ .text .official .openAiChatDefault)
      alternatingDeltas).map fun taken => (taken.1.tools.order,
        taken.1.tools.totalArgumentBytes, taken.1.tools.argumentBytes,
        (taken.1.tools.finishAll emptyObjectLibrary).toOption.isSome)).toOption =
      some ([3, 1], 4, 4, true) := by decide +kernel
  rcases exists_ok_of_map accepted with ⟨⟨machine, seen⟩, pushed, summary⟩
  simp only [Prod.mk.injEq] at summary
  rcases summary with ⟨order, total, bytes, finishes⟩
  have taken : ToolDeltasTaken emptyObjectLibrary .official machine seen :=
    (ToolDeltasTaken.fresh rfl).pushToolDeltas pushed
  have finished : Succeeds (machine.tools.finishAll emptyObjectLibrary) := by
    cases isFinished : machine.tools.finishAll emptyObjectLibrary with
    | error => simp [isFinished, Except.toOption] at finishes
    | ok ended => exact ⟨ended, rfl⟩
  exact ⟨machine, seen, pushed, order, total, finished,
    toolDeltas_accumulate _ _ machine seen taken (by rw [bytes]; decide)⟩

end Philo.OpenAiChat
