import Philo.Domain.CollectorGrammar

/-! The order of events in any stream, complete or cut short: what a reader of the events
can rely on before it knows how the stream ends. -/

namespace Philo

structure EventOrder (events : List AssistantEvent) : Prop where
  /-- `Start` comes first, and only there. -/
  begins : events = [] ∨ ∃ localRequestId providerRequestId generationId rest,
    events = .start localRequestId providerRequestId generationId :: rest ∧
      ∀ localId providerId generation, .start localId providerId generation ∉ rest
  /-- Blocks are numbered 0, 1, 2 and so on. -/
  numbered : (startsOf events).map (fun started => started.1.toNat) =
    List.range (startsOf events).length
  /-- A delta or an end addresses a block of its kind that has started and not ended. -/
  addressed : ∀ before event after index accepts, events = before ++ event :: after →
    event.addresses? = some (index, accepts) →
      ∃ start, IsOpen before index start ∧ accepts start = true
  /-- `Done` comes last, when every block has ended. -/
  done : ∀ before reason after, events = before ++ .done reason :: after → after = [] ∧
    ∀ index start, (index, start) ∈ startsOf before → index ∈ endsOf before

def AssistantEvent.reportsUsage : AssistantEvent → Bool
  | usage _ | detailedUsage _ => true
  | _ => false

def content (events : List AssistantEvent) : List AssistantEvent :=
  events.filter fun event => !event.reportsUsage

theorem content_append (first second : List AssistantEvent) :
    content (first ++ second) = content first ++ content second := List.filter_append ..

theorem mem_content {event : AssistantEvent} {events : List AssistantEvent}
    (notUsage : event.reportsUsage = false) : event ∈ content events ↔ event ∈ events := by
  simp [content, notUsage]

theorem filterMap_content {α : Type} {view : AssistantEvent → Option α}
    (silent : ∀ event, event.reportsUsage = true → view event = none)
    (events : List AssistantEvent) : (content events).filterMap view = events.filterMap view := by
  rw [content, List.filterMap_filter]
  refine List.filterMap_congr fun event _ => ?_
  by_cases isUsage : event.reportsUsage = true
  · rw [silent event isUsage]
    simp
  · simp [isUsage]

theorem startsOf_content (events : List AssistantEvent) :
    startsOf (content events) = startsOf events :=
  filterMap_content (fun event isUsage => by cases event <;> first | rfl | cases isUsage) events

theorem endsOf_content (events : List AssistantEvent) : endsOf (content events) = endsOf events :=
  filterMap_content (fun event isUsage => by cases event <;> first | rfl | cases isUsage) events

theorem isOpen_content {events : List AssistantEvent} {index : ContentIndex}
    {start : BlockStart} : IsOpen (content events) index start ↔ IsOpen events index start := by
  rw [IsOpen, startsOf_content, endsOf_content, IsOpen]

theorem split_of_content {told events before after : List AssistantEvent}
    {event : AssistantEvent} (same : content told = content events)
    (split : events = before ++ event :: after) (notUsage : event.reportsUsage = false) :
    ∃ earlier later, told = earlier ++ event :: later ∧ content earlier = content before := by
  have parts : content told = content before ++ event :: content after := by
    rw [same, split, content_append]
    simp [content, notUsage]
  rcases List.filter_eq_append_iff.mp parts with ⟨first, second, rfl, isFirst, isSecond⟩
  rcases List.filter_eq_cons_iff.mp isSecond with ⟨skipped, later, rfl, usages, _, _⟩
  refine ⟨first ++ skipped, later, by simp, ?_⟩
  have nothing : content skipped = [] := List.filter_eq_nil_iff.mpr usages
  rw [content_append, nothing, List.append_nil]
  exact isFirst

theorem eventOrder_of_fits {told events : List AssistantEvent}
    (same : content told = content events)
    (begins : ∀ event rest, events = event :: rest → ∃ localRequestId providerRequestId
      generationId, event = .start localRequestId providerRequestId generationId)
    (fits : Everywhere Fits told)
    (last : ∀ before reason after, events = before ++ .done reason :: after → after = []) :
    EventOrder events := by
  have fitsAt : ∀ before event after, events = before ++ event :: after →
      event.reportsUsage = false → ∃ earlier, content earlier = content before ∧
        Fits earlier event := by
    intro before event after split notUsage
    rcases split_of_content same split notUsage with ⟨earlier, later, isTold, sameBefore⟩
    exact ⟨earlier, sameBefore, fits earlier event later isTold⟩
  refine ⟨?_, ?_, ?_, ?_⟩
  · cases events with
    | nil => exact .inl rfl
    | cons event rest =>
      rcases begins event rest rfl with ⟨localRequestId, providerRequestId, generationId, rfl⟩
      refine .inr ⟨localRequestId, providerRequestId, generationId, rest, rfl, ?_⟩
      intro localId providerId generation member
      rcases List.append_of_mem member with ⟨before, after, rfl⟩
      rcases fitsAt (.start localRequestId providerRequestId generationId :: before)
        (.start localId providerId generation) after rfl rfl with ⟨earlier, sameBefore, again⟩
      refine again.2.2 localRequestId providerRequestId generationId ?_
      rw [← mem_content rfl, sameBefore, mem_content rfl]
      exact List.mem_cons_self ..
  · have numbered := numbered_of_fits fits
    rwa [← startsOf_content, same, startsOf_content] at numbered
  · intro before event after index accepts split addressed
    have notUsage : event.reportsUsage = false := by cases event <;> first | rfl | cases addressed
    rcases fitsAt before event after split notUsage with ⟨earlier, sameBefore, fitsThere⟩
    rcases addressed_of_fits fitsThere addressed with ⟨start, isOpen, isKind⟩
    rw [← isOpen_content, sameBefore, isOpen_content] at isOpen
    exact ⟨start, isOpen, isKind⟩
  · intro before reason after split
    refine ⟨last before reason after split, fun index start started => ?_⟩
    rcases fitsAt before (.done reason) after split rfl with ⟨earlier, sameBefore, fitsThere⟩
    have ended := fitsThere.2.1 index start
    rw [← startsOf_content, ← endsOf_content, sameBefore, startsOf_content, endsOf_content] at ended
    exact ended started

end Philo
