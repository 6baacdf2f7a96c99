import Philo.Domain.Event
import Philo.Foundation.Everywhere
import Philo.Foundation.KeyedText

/-! Which sequences of assistant events tell of one complete message, said without a
collector: by what each event says about the blocks that came before it. -/

namespace Philo

open KeyedText

inductive BlockStart where
  | text
  | thinking
  | refusal
  | toolCall (wireIndex : WireToolIndex) (id : Option ToolCallId)
  deriving DecidableEq

inductive Fragment where
  | text | thinking | refusal | toolName | toolArguments
  deriving DecidableEq

namespace AssistantEvent

def starts? : AssistantEvent → Option (ContentIndex × BlockStart)
  | textStart index => some (index, .text)
  | thinkingStart index => some (index, .thinking)
  | refusalStart index => some (index, .refusal)
  | toolCallStart index wireIndex id => some (index, .toolCall wireIndex id)
  | _ => none

def ends? : AssistantEvent → Option ContentIndex
  | textEnd index | thinkingEnd index | refusalEnd index | toolCallEnd index _ => some index
  | _ => none

/-- The fragment of one kind that the event carries, under its block. -/
def fragment? : Fragment → AssistantEvent → Option (ContentIndex × String)
  | .text, textDelta index delta => some (index, delta)
  | .thinking, thinkingDelta index delta => some (index, delta)
  | .refusal, refusalDelta index delta => some (index, delta)
  | .toolName, toolCallDelta index _ nameDelta _ => some (index, nameDelta.getD "")
  | .toolArguments, toolCallDelta index _ _ argumentsDelta => some (index, argumentsDelta.getD "")
  | _, _ => none

/-- The block that the event takes to be open, and the starts that it can belong to. A
delta of a tool call names its wire index along with its block. -/
def addresses? : AssistantEvent → Option (ContentIndex × (BlockStart → Bool))
  | textDelta index _ | textEnd index => some (index, fun start => start = .text)
  | thinkingDelta index _ | thinkingOpaque index _ | thinkingEnd index =>
    some (index, fun start => start = .thinking)
  | refusalDelta index _ | refusalEnd index => some (index, fun start => start = .refusal)
  | toolCallDelta index wireIndex _ _ => some (index, fun
      | .toolCall expected _ => expected = wireIndex
      | _ => false)
  | toolCallEnd index _ => some (index, fun
      | .toolCall _ _ => true
      | _ => false)
  | _ => none

def marksTool : AssistantEvent → Bool
  | toolCallStart .. | toolCallEnd .. => true
  | _ => false

end AssistantEvent

/-! ## What a sequence of events tells -/

section Told

variable (events : List AssistantEvent)

def startsOf : List (ContentIndex × BlockStart) := events.filterMap AssistantEvent.starts?

def endsOf : List ContentIndex := events.filterMap AssistantEvent.ends?

def textOf (kind : Fragment) (index : ContentIndex) : String :=
  joinedAt index (events.filterMap (AssistantEvent.fragment? kind))

def opaqueOf? (index : ContentIndex) : Option OpaqueReasoning :=
  events.findSome? fun
    | .thinkingOpaque at' opaqueState => if at' = index then some opaqueState else none
    | _ => none

def callOf? (index : ContentIndex) : Option ToolCall :=
  events.findSome? fun
    | .toolCallEnd at' call => if at' = index then some call else none
    | _ => none

def IsOpen (index : ContentIndex) (start : BlockStart) : Prop :=
  (index, start) ∈ startsOf events ∧ index ∉ endsOf events

def HasId (index : ContentIndex) (id : ToolCallId) : Prop :=
  (∃ wireIndex, (index, .toolCall wireIndex (some id)) ∈ startsOf events) ∨
    ∃ call, .toolCallEnd index call ∈ events ∧ call.id = id

def partOf? (index : ContentIndex) : BlockStart → Option ContentPart
  | .text => some (.text (textOf events .text index))
  | .thinking => some (.thinking ⟨textOf events .thinking index, opaqueOf? events index⟩)
  | .refusal => some (.refusal (textOf events .refusal index))
  | .toolCall _ _ => (callOf? events index).map .toolCall

end Told

structure EventGrammar (events : List AssistantEvent) : Prop where
  /-- `Start` comes at most once, and before any block. -/
  start : ∀ before localRequestId providerRequestId generationId after,
    events = before ++ .start localRequestId providerRequestId generationId :: after →
      startsOf before = [] ∧ ∀ localId providerId generation,
        .start localId providerId generation ∉ before
  /-- Blocks are numbered 0, 1, 2 and so on. -/
  numbered : (startsOf events).map (fun started => started.1.toNat) =
    List.range (startsOf events).length
  /-- A delta or an end addresses an open block of its kind. -/
  addressed : ∀ before event after index accepts, events = before ++ event :: after →
    event.addresses? = some (index, accepts) →
      ∃ start, IsOpen before index start ∧ accepts start = true
  opaqueOnce : ∀ before index opaqueState after,
    events = before ++ .thinkingOpaque index opaqueState :: after →
      ∀ earlier, .thinkingOpaque index earlier ∉ before
  /-- No two tool calls share a wire index, and no two share an id. -/
  wireIndexes : ∀ index other wireIndex id otherId,
    (index, .toolCall wireIndex id) ∈ startsOf events →
      (other, .toolCall wireIndex otherId) ∈ startsOf events → index = other
  ids : ∀ index other id, HasId events index id → HasId events other id → index = other
  /-- The end of a tool call repeats the id of its start, its name and its arguments. -/
  calls : ∀ before index call after, events = before ++ .toolCallEnd index call :: after →
    (∀ wireIndex id, (index, .toolCall wireIndex (some id)) ∈ startsOf before →
      id = call.id) ∧
        textOf before .toolName index = call.name.value ∧
          textOf before .toolArguments index = call.arguments.rawJson
  usage : ∀ usage other, .usage usage ∈ events → .usage other ∈ events → usage = other
  usageDetails : ∀ details other, .detailedUsage details ∈ events →
    .detailedUsage other ∈ events → details = other
  /-- `Done` comes once, at the end, when every block has ended. -/
  done : ∃ body finishReason, events = body ++ [.done finishReason] ∧
    (∀ earlier, .done earlier ∉ body) ∧
      (∀ index start, (index, start) ∈ startsOf body → index ∈ endsOf body) ∧
        endsOf body ≠ [] ∧
          (finishReason = .toolCalls ↔ ∃ index call, .toolCallEnd index call ∈ body)

def Fits (seen : List AssistantEvent) (event : AssistantEvent) : Prop :=
  (∀ reason, .done reason ∉ seen) ∧
    match event with
    | .start .. => startsOf seen = [] ∧ ∀ localRequestId providerRequestId generationId,
        .start localRequestId providerRequestId generationId ∉ seen
    | .textStart index | .thinkingStart index | .refusalStart index =>
      index.toNat = (startsOf seen).length
    | .toolCallStart index wireIndex id => index.toNat = (startsOf seen).length ∧
        (∀ other otherId, (other, .toolCall wireIndex otherId) ∉ startsOf seen) ∧
          ∀ known ∈ id, ∀ other, ¬ HasId seen other known
    | .textDelta index _ | .textEnd index => IsOpen seen index .text
    | .thinkingDelta index _ | .thinkingEnd index => IsOpen seen index .thinking
    | .thinkingOpaque index _ => IsOpen seen index .thinking ∧
        ∀ earlier, .thinkingOpaque index earlier ∉ seen
    | .refusalDelta index _ | .refusalEnd index => IsOpen seen index .refusal
    | .toolCallDelta index wireIndex _ _ => ∃ id, IsOpen seen index (.toolCall wireIndex id)
    | .toolCallEnd index call => ∃ wireIndex id, IsOpen seen index (.toolCall wireIndex id) ∧
        (∀ known ∈ id, known = call.id) ∧
          (id = none → ∀ other, ¬ HasId seen other call.id) ∧
            textOf seen .toolName index = call.name.value ∧
              textOf seen .toolArguments index = call.arguments.rawJson
    | .usage usage => ∀ other, .usage other ∈ seen → other = usage
    | .detailedUsage details => ∀ other, .detailedUsage other ∈ seen → other = details
    | .done reason => (∀ index start, (index, start) ∈ startsOf seen → index ∈ endsOf seen) ∧
        endsOf seen ≠ [] ∧
          (reason = .toolCalls ↔ ∃ index call, .toolCallEnd index call ∈ seen)

/-! ## One more event -/

section Snoc

variable {seen : List AssistantEvent} {event : AssistantEvent} {index : ContentIndex}

theorem startsOf_snoc : startsOf (seen ++ [event]) = startsOf seen ++ event.starts?.toList := by
  simp only [startsOf, List.filterMap_append]
  cases started : event.starts? <;> simp [started]

theorem endsOf_snoc : endsOf (seen ++ [event]) = endsOf seen ++ event.ends?.toList := by
  simp only [endsOf, List.filterMap_append]
  cases ended : event.ends? <;> simp [ended]

theorem startsOf_snoc_none (noStart : event.starts? = none) :
    startsOf (seen ++ [event]) = startsOf seen := by
  rw [startsOf_snoc, noStart]
  exact List.append_nil _

theorem endsOf_snoc_none (noEnd : event.ends? = none) :
    endsOf (seen ++ [event]) = endsOf seen := by
  rw [endsOf_snoc, noEnd]
  exact List.append_nil _

theorem mem_startsOf_append {started : ContentIndex × BlockStart}
    (earlier : started ∈ startsOf seen) (later : List AssistantEvent) :
    started ∈ startsOf (seen ++ later) := by
  rw [startsOf, List.filterMap_append]
  exact List.mem_append_left _ earlier

theorem textOf_snoc (kind : Fragment) : textOf (seen ++ [event]) kind index =
      textOf seen kind index ++ joinedAt index (event.fragment? kind).toList := by
  simp only [textOf, List.filterMap_append, joinedAt_append]
  cases carried : event.fragment? kind <;> simp [carried]

theorem textOf_snoc_other (kind : Fragment)
    (other : ∀ delta, event.fragment? kind ≠ some (index, delta)) :
    textOf (seen ++ [event]) kind index = textOf seen kind index := by
  rw [textOf_snoc]
  cases carried : event.fragment? kind with
  | none => exact String.append_empty
  | some piece =>
    rcases piece with ⟨at', delta⟩
    have different : at' ≠ index := by
      rintro rfl
      exact other delta carried
    rw [Option.toList_some, joinedAt_other different, String.append_empty]

theorem textOf_snoc_same {kind : Fragment} {delta : String}
    (carried : event.fragment? kind = some (index, delta)) :
    textOf (seen ++ [event]) kind index = textOf seen kind index ++ delta := by
  rw [textOf_snoc, carried, Option.toList_some, joinedAt_same]

theorem toolStart_snoc (unmarked : event.marksTool = false) {index : ContentIndex}
    {wireIndex : WireToolIndex} {id : Option ToolCallId} :
    (index, .toolCall wireIndex id) ∈ startsOf (seen ++ [event]) ↔
      (index, .toolCall wireIndex id) ∈ startsOf seen := by
  rw [startsOf_snoc, List.mem_append]
  refine or_iff_left fun started => ?_
  cases event with
  | toolCallStart => cases unmarked
  | _ => simp [AssistantEvent.starts?] at started

theorem hasId_snoc (unmarked : event.marksTool = false) {index : ContentIndex}
    {id : ToolCallId} : HasId (seen ++ [event]) index id ↔ HasId seen index id := by
  simp only [HasId, toolStart_snoc unmarked, List.mem_append, List.mem_singleton]
  refine or_congr_right (exists_congr fun call => and_congr_left fun _ => ?_)
  refine or_iff_left fun ended => ?_
  subst ended
  cases unmarked

theorem hasId_snoc_start {started index : ContentIndex} {wireIndex : WireToolIndex}
    {announced : Option ToolCallId} {id : ToolCallId} :
    HasId (seen ++ [.toolCallStart started wireIndex announced]) index id ↔
      HasId seen index id ∨ (index = started ∧ announced = some id) := by
  simp only [HasId, startsOf_snoc, AssistantEvent.starts?, Option.toList_some, List.mem_append,
    List.mem_singleton, Prod.mk.injEq, BlockStart.toolCall.injEq, reduceCtorEq, or_false]
  constructor
  · rintro (⟨otherWire, earlier | ⟨same, _, isId⟩⟩ | ended)
    · exact .inl (.inl ⟨otherWire, earlier⟩)
    · exact .inr ⟨same, isId.symm⟩
    · exact .inl (.inr ended)
  · rintro ((⟨otherWire, earlier⟩ | ended) | ⟨same, isId⟩)
    · exact .inl ⟨otherWire, .inl earlier⟩
    · exact .inr ended
    · exact .inl ⟨wireIndex, .inr ⟨same, rfl, isId.symm⟩⟩

theorem hasId_snoc_end {ended index : ContentIndex} {call : ToolCall} {id : ToolCallId} :
    HasId (seen ++ [.toolCallEnd ended call]) index id ↔
      HasId seen index id ∨ (index = ended ∧ call.id = id) := by
  simp only [HasId, startsOf_snoc, AssistantEvent.starts?, Option.toList_none,
    List.append_nil, List.mem_append, List.mem_singleton, AssistantEvent.toolCallEnd.injEq]
  constructor
  · rintro (announced | ⟨otherCall, earlier | ⟨same, rfl⟩, isId⟩)
    · exact .inl (.inl announced)
    · exact .inl (.inr ⟨otherCall, earlier, isId⟩)
    · exact .inr ⟨same, isId⟩
  · rintro ((announced | ⟨otherCall, earlier, isId⟩) | ⟨same, isId⟩)
    · exact .inl announced
    · exact .inr ⟨otherCall, .inl earlier, isId⟩
    · exact .inr ⟨call, .inr ⟨same, rfl⟩, isId⟩

end Snoc

/-! ## Numbered blocks -/

section Numbered

variable {events : List AssistantEvent} {index : ContentIndex} {start : BlockStart}
  (numbered : (startsOf events).map (fun started => started.1.toNat) =
    List.range (startsOf events).length)

include numbered

theorem index_lt_of_numbered (started : (index, start) ∈ startsOf events) :
    index.toNat < (startsOf events).length := by
  have listed : index.toNat ∈ (startsOf events).map fun started => started.1.toNat :=
    List.mem_map.mpr ⟨_, started, rfl⟩
  rw [numbered] at listed
  exact List.mem_range.mp listed

theorem start_unique_of_numbered {other : BlockStart}
    (started : (index, start) ∈ startsOf events) (again : (index, other) ∈ startsOf events) :
    start = other := by
  have distinct : ((startsOf events).map fun started => started.1.toNat).Nodup := by
    rw [numbered]
    exact List.nodup_range
  have same := List.inj_on_of_nodup_map distinct started again rfl
  exact congrArg Prod.snd same

theorem getElem_of_numbered (started : (index, start) ∈ startsOf events) :
    (startsOf events)[index.toNat]? = some (index, start) := by
  rcases List.getElem?_of_mem started with ⟨position, found⟩
  have number : ((startsOf events).map fun started => started.1.toNat)[position]? =
      some index.toNat := by
    rw [List.getElem?_map, found]
    rfl
  rw [numbered, List.getElem?_range (List.getElem?_eq_some_iff.mp found).1] at number
  rw [← Option.some.inj number, found]

end Numbered

end Philo
