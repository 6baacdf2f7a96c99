import Philo.Protocol.AnthropicMessages.Agreement
import Philo.Protocol.AnthropicMessages.Payments

/-! The accounts of the Anthropic machine over whole runs. -/

namespace Philo.AnthropicMessages

open Result Std KeyedText MessagesStateMachine

variable {Schema : Type}

theorem accept_pays {library : WireLibrary Schema} {machine next : MessagesStateMachine Schema}
    {event : SseEvent} {events : List AssistantEvent} {thinking : List UInt32}
    (tracks : Tracks thinking machine)
    (accepted : accept library machine event = .ok (next, events)) :
    ∃ wire, decodeEvent library event = .ok wire ∧ Pays thinking machine wire next events := by
  rcases step_of_accept accepted with ⟨_, wire, decoded, step⟩
  exact ⟨wire, decoded, step.pays tracks⟩

theorem run_pays {library : WireLibrary Schema} {machine final : MessagesStateMachine Schema}
    {events : List SseEvent} {seen emitted : List AssistantEvent} {thinking : List UInt32}
    (tracks : Tracks thinking machine) (within : machine.counters.Within machine.limits)
    (calls : CallsWithin machine seen) (accepted : (producer library).run machine events =
      .ok (final, emitted)) :
    final.limits = machine.limits ∧
      final.counters = machine.counters + costs emitted +
        .ofOpaque (opaqueBytesOf thinking (wireEvents library events)) ∧
      final.counters.Within machine.limits ∧ CallsWithin final (seen ++ emitted) := by
  induction events generalizing machine seen emitted thinking with
  | nil =>
    cases accepted
    exact ⟨rfl, rfl, within, by rwa [List.append_nil]⟩
  | cons event rest induction =>
    rcases (producer library).run_cons_eq_ok.mp accepted with
      ⟨next, first, later, step, tail, rfl⟩
    rcases accept_pays tracks step with ⟨wire, decoded, pays⟩
    rcases induction pays.tracks (pays.limits ▸ pays.within within)
      (calls.step pays.limits pays.input) tail with ⟨limits, counters, nextWithin, callsWithin⟩
    refine ⟨limits.trans pays.limits, ?_, pays.limits ▸ nextWithin, ?_⟩
    · rw [counters, pays.counters, wireEvents_cons decoded, opaqueBytesOf, costs_append,
        Counters.ofOpaque_add, ← add_assoc, ← add_assoc]
      congr 1
      exact add_right_comm ..
    · rwa [← List.append_assoc]

/-- Anthropic budget accounting: after every sequence of events that the machine accepts,
the counters are the bytes of the text, thinking and argument deltas emitted so far, the
number of `ToolCallStart` events and the opaque bytes received, that is, the redacted data
and the signatures of thinking blocks. Each counter is within its limit, and so are the
arguments of every single call. -/
theorem run_accounts (library : WireLibrary Schema) (context : StreamContext)
    (format : ResponseFormat Schema) (limits : ResponseLimits) (compat : UsageCompat)
    (events : List SseEvent) (final : MessagesStateMachine Schema)
    (emitted : List AssistantEvent)
    (accepted : (producer library).run
      (.new context format limits compat) events = .ok (final, emitted)) :
    final.counters =
        costs emitted + .ofOpaque (opaqueBytesOf [] (wireEvents library events)) ∧
      final.counters.Within limits ∧
      ∀ index, Text.len (argumentsAt index emitted) ≤ limits.maxToolArgumentsBytes := by
  have noBlocks : ∀ wireIndex, lookup (new context format limits
      compat).blocks wireIndex = none := fun wireIndex => by
    rw [new, lookup_empty]
  have noCall : ∀ wireIndex, callAt (.new context format limits compat) wireIndex = none := by
    intro wireIndex
    rw [callAt, noBlocks, Option.bind_none]
  have tracks : Tracks [] (.new context format limits compat) := fun wireIndex =>
    iff_of_false (List.not_mem_nil) (not_thinksAt_of_vacant (noBlocks wireIndex))
  have calls : CallsWithin (.new context format limits compat) [] := by
    refine ⟨?_, ?_, ?_, fun index => Nat.zero_le _⟩
    · intro wireIndex index arguments isOpen
      cases (noCall wireIndex).symm.trans isOpen
    · intro wireIndex other index arguments arguments' isOpen
      cases (noCall wireIndex).symm.trans isOpen
    · intro piece member
      cases member
  rcases run_pays tracks (Counters.within_zero limits) calls accepted with
    ⟨sameLimits, counters, within, callsWithin⟩
  refine ⟨?_, within, fun index => ?_⟩
  · rw [counters, show (new context format limits compat).counters = 0
      from rfl, zero_add]
  · have bounded := callsWithin.within index
    rw [sameLimits] at bounded
    exact bounded

theorem emptyObjectCall_accounted :
    ∃ final emitted, (producer (recordedLibrary emptyObjectCall)).run
        (.new recordedContext .text .official .strictStableFields)
        (emptyObjectCall.map Recorded.sseEvent) = .ok (final, emitted) ∧
      final.counters = ⟨0, 0, 2, 1, 0⟩ ∧
      final.counters = costs emitted + .ofOpaque (opaqueBytesOf []
        (wireEvents (recordedLibrary emptyObjectCall)
          (emptyObjectCall.map Recorded.sseEvent))) ∧
      final.counters.Within .official ∧
      ∀ index, Text.len (argumentsAt index emitted) ≤
        ResponseLimits.official.maxToolArgumentsBytes := by
  have counted : (((producer (recordedLibrary emptyObjectCall)).run
      (.new recordedContext .text .official .strictStableFields)
      (emptyObjectCall.map Recorded.sseEvent)).map fun reached =>
        reached.1.counters).toOption = some ⟨0, 0, 2, 1, 0⟩ := by decide +kernel
  rcases exists_ok_of_map counted with ⟨⟨final, emitted⟩, accepted, summary⟩
  exact ⟨final, emitted, accepted, summary, run_accounts _ _ _ _ _ _ _ _ accepted⟩

end Philo.AnthropicMessages
