import Philo.Domain.Event
import Philo.Transport.SseDelivery

/-! The driver that feeds the events of one SSE decoder to the response machine of a
protocol. What it yields is a function of what the decoder yields, and so of the bytes of
the body alone. -/

namespace Philo

open PollNext

/-- The source, the machine, and what the machine has emitted and nobody has taken yet. -/
structure SseMachineStream (σ υ : Type) where
  source : υ
  machine : σ
  pending : List (Except LlmError AssistantEvent)
  terminal : Bool

namespace SseMachineStream

variable {σ υ : Type}

def new (source : υ) (machine : σ) : SseMachineStream σ υ := ⟨source, machine, [], false⟩

def popFront (stream : SseMachineStream σ υ) :
    Poll (Option (Except LlmError AssistantEvent)) × SseMachineStream σ υ :=
  (.ready stream.pending.head?, { stream with pending := stream.pending.tail })

def fail (stream : SseMachineStream σ υ) (error : LlmError) :
    Poll (Option (Except LlmError AssistantEvent)) × SseMachineStream σ υ :=
  (.ready (some (.error error)), { stream with terminal := true })

variable (pollSource : PollNext υ SseItem)
  (machine : Producer σ SseFrame AssistantEvent LlmError)

/-- The loop of `poll_next`, with the number of events that this call may still take. -/
def pollLoop : Nat → PollNext (SseMachineStream σ υ) (Except LlmError AssistantEvent)
  | 0, stream => (.pending, stream)
  | events + 1, stream =>
    match pollSource stream.source with
    | (.ready (some (.ok event)), source) =>
      match machine.accept stream.machine event with
      | .ok (next, emitted) =>
        let stream := ⟨source, next, stream.pending ++ emitted.map .ok, stream.terminal⟩
        if stream.pending.isEmpty then pollLoop events stream else stream.popFront
      | .error error => fail { stream with source } error
    | (.ready (some (.error error)), source) => fail { stream with source } error.intoLlmError
    | (.ready none, source) =>
      match machine.finish stream.machine with
      | .ok emitted => popFront ⟨source, stream.machine, stream.pending ++ emitted.map .ok, true⟩
      | .error error => fail { stream with source } error
    | (.pending, source) => (.pending, { stream with source })

def pollNext (maxEventsPerPoll : Nat) :
    PollNext (SseMachineStream σ υ) (Except LlmError AssistantEvent) := fun stream =>
  if stream.pending.isEmpty then
    if stream.terminal then (.ready none, stream)
    else pollLoop pollSource machine maxEventsPerPoll stream
  else stream.popFront

def outputs : σ → List SseItem → List (Except LlmError AssistantEvent)
  | state, [] =>
    match machine.finish state with
    | .ok emitted => emitted.map .ok
    | .error error => [.error error]
  | _, .error error :: _ => [.error error.intoLlmError]
  | state, .ok event :: rest =>
    match machine.accept state event with
    | .ok (next, emitted) => emitted.map .ok ++ outputs next rest
    | .error error => [.error error]

/-! ## What the stream yields -/

variable {pollSource machine} {budget : Nat}

theorem yields_of_terminal (source : υ) (state : σ) :
    (pollNext pollSource machine budget).Yields ⟨source, state, [], true⟩ [] := by
  have polled : pollNext pollSource machine budget ⟨source, state, [], true⟩ =
      (.ready none, ⟨source, state, [], true⟩) := rfl
  exact .ended polled

theorem yields_append {stream : SseMachineStream σ υ}
    {later : List (Except LlmError AssistantEvent)}
    (yields : (pollNext pollSource machine budget).Yields { stream with pending := [] } later)
    (emitted : List (Except LlmError AssistantEvent)) :
    (pollNext pollSource machine budget).Yields { stream with pending := emitted }
      (emitted ++ later) := by
  induction emitted with
  | nil => exact yields
  | cons item rest induction =>
    have polled : pollNext pollSource machine budget { stream with pending := item :: rest } =
        (.ready (some item), { stream with pending := rest }) := rfl
    exact .ready polled induction

theorem leaves_popFront {stream : SseMachineStream σ υ}
    {later : List (Except LlmError AssistantEvent)}
    (yields : (pollNext pollSource machine budget).Yields { stream with pending := [] } later)
    (nothingLater : stream.pending = [] → later = []) :
    (pollNext pollSource machine budget).Leaves stream.popFront (stream.pending ++ later) := by
  unfold popFront
  cases pending : stream.pending with
  | nil =>
    rw [nothingLater pending]
    exact .ended
  | cons item rest => exact .ready (yields_append yields rest)

theorem leaves_fail (stream : SseMachineStream σ υ) (error : LlmError)
    (nothing : stream.pending = []) :
    (pollNext pollSource machine budget).Leaves (stream.fail error) [.error error] := by
  refine .ready ?_
  rw [nothing]
  exact yields_of_terminal _ _

theorem yields_of_loop {source : υ} {state : σ} {items : List (Except LlmError AssistantEvent)}
    (leaves : (pollNext pollSource machine budget).Leaves
      (pollLoop pollSource machine budget ⟨source, state, [], false⟩) items) :
    (pollNext pollSource machine budget).Yields ⟨source, state, [], false⟩ items :=
  Leaves.yields leaves

/-- A call that may take no more leaves the stream as it is, and the next one may. -/
theorem leaves_of_turn (positive : 0 < budget) {source : υ} {state : σ}
    {items : List (Except LlmError AssistantEvent)}
    (turn : ∀ events, (pollNext pollSource machine budget).Leaves
      (pollLoop pollSource machine (events + 1) ⟨source, state, [], false⟩) items)
    (events : Nat) : (pollNext pollSource machine budget).Leaves
      (pollLoop pollSource machine events ⟨source, state, [], false⟩) items := by
  cases events with
  | succ events => exact turn events
  | zero =>
    have next := turn (budget - 1)
    rw [Nat.sub_add_cancel positive] at next
    exact .pending (yields_of_loop next)

theorem leaves_outputs (positive : 0 < budget) {source : υ} {items : List SseItem}
    (yields : pollSource.Yields source items) (state : σ) (events : Nat) :
    (pollNext pollSource machine budget).Leaves
      (pollLoop pollSource machine events ⟨source, state, [], false⟩)
      (outputs machine state items) := by
  induction yields generalizing state events with
  | @ended _ after polled =>
    refine leaves_of_turn positive (fun events => ?_) events
    simp only [pollLoop, polled, outputs]
    cases machine.finish state with
    | ok emitted =>
      have left := @leaves_popFront _ _ pollSource machine budget
        ⟨after, state, emitted.map .ok, true⟩ [] (yields_of_terminal _ _) fun _ => rfl
      rwa [List.append_nil] at left
    | error error => exact leaves_fail _ _ rfl
  | pending polled _ induction =>
    refine leaves_of_turn positive (fun events => ?_) events
    simp only [pollLoop, polled]
    exact .pending (yields_of_loop (induction state budget))
  | @ready _ _ item _ polled _ induction =>
    refine leaves_of_turn positive (fun events => ?_) events
    cases item with
    | error error =>
      simp only [pollLoop, polled, outputs]
      exact leaves_fail _ _ rfl
    | ok event =>
      simp only [pollLoop, polled, outputs]
      cases machine.accept state event with
      | error error => exact leaves_fail _ _ rfl
      | ok accepted =>
        rcases accepted with ⟨next, emitted⟩
        simp only [List.nil_append]
        split
        · next empty =>
            rw [List.isEmpty_iff.mp empty]
            exact induction next events
        · next some =>
            have left := yields_of_loop (induction next budget)
            exact leaves_popFront left fun none => absurd (List.isEmpty_iff.mpr none) some

/-- A stream that is polled to completion yields what its machine makes of its source. -/
theorem yields_outputs (positive : 0 < budget) {source : υ} {items : List SseItem}
    (yields : pollSource.Yields source items) (state : σ) :
    (pollNext pollSource machine budget).Yields (.new source state)
      (outputs machine state items) :=
  yields_of_loop (leaves_outputs positive yields state budget)

def calls (config : SseConfig) (machine : Producer σ SseFrame AssistantEvent LlmError) :
    PollNext (SseMachineStream σ (SseStream Deliveries)) (Except LlmError AssistantEvent) :=
  pollNext (SseStream.calls config) machine config.maxEventsPerPoll

/-- The items of a response depend on the bytes of its body alone: however they are cut
into chunks, however often the body is not ready, and whatever one call may take. -/
theorem items_independent_of_delivery
    (machine : Producer σ SseFrame AssistantEvent LlmError) (state : σ)
    (first second : SseConfig) (same : first.SameFraming second) (left right : Deliveries)
    (sameBytes : left.bytes = right.bytes) (leftWithin : left.Within first)
    (rightWithin : right.Within second) :
    ∃ items,
      (∀ others, (calls first machine).Yields (.new (.withConfig left) state) others ↔
        others = items) ∧
      ∀ others, (calls second machine).Yields (.new (.withConfig right) state) others ↔
        others = items := by
  have leftItems := SseStream.yields_itemsFrom left leftWithin
  have rightItems := SseStream.yields_itemsFrom right rightWithin
  rw [← sameBytes, ← SseDecoder.itemsFrom_congr same] at rightItems
  refine ⟨outputs machine state (SseDecoder.withConfig.itemsFrom first left.bytes), ?_, ?_⟩
  · intro others
    exact (yields_outputs first.eventsPerPollPositive leftItems state).iff_eq
  · intro others
    exact (yields_outputs second.eventsPerPollPositive rightItems state).iff_eq

def echo : Producer Unit SseFrame AssistantEvent LlmError where
  accept _ event :=
    if event.data = "stop" then .error .cancelled else .ok ((), [.textDelta 0 event.data])
  finish _ := .ok []

def unitBudget : SseConfig :=
  { (default : SseConfig) with
    maxBytesPerPoll := 1
    maxChunksPerPoll := 1
    maxEventsPerPoll := 1
    bytesPerPollPositive := Nat.one_pos
    chunksPerPollPositive := Nat.one_pos
    eventsPerPollPositive := Nat.one_pos }

def wholeBody : Deliveries := [.ready (Text.bytes "data: a\r\n\r\ndata: stop")]

def cutBody : Deliveries :=
  [.pending, .ready (Text.bytes "data: a\r"), .ready [], .pending, .ready (Text.bytes "\n\r"),
    .ready (Text.bytes "\ndata: st"), .pending, .ready (Text.bytes "op")]

theorem cutBody_as_wholeBody : wholeBody.Within default ∧ cutBody.Within unitBudget ∧
    ∃ items,
      (∀ others, (calls default echo).Yields (.new (.withConfig wholeBody) ()) others ↔
        others = items) ∧
      ∀ others, (calls unitBudget echo).Yields (.new (.withConfig cutBody) ()) others ↔
        others = items := by
  have wholeWithin : wholeBody.Within default := by
    intro chunk member
    simp only [wholeBody, List.mem_singleton, Poll.ready.injEq] at member
    rw [member]
    decide
  have cutWithin : cutBody.Within unitBudget := by
    intro chunk member
    simp only [cutBody, List.mem_cons, Poll.ready.injEq, reduceCtorEq, false_or,
      List.not_mem_nil, or_false] at member
    rcases member with rfl | rfl | rfl | rfl | rfl <;> decide
  exact ⟨wholeWithin, cutWithin, items_independent_of_delivery echo () default unitBudget
    ⟨rfl, rfl, rfl⟩ wholeBody cutBody (by decide +kernel) wholeWithin cutWithin⟩

end SseMachineStream

end Philo
