import Philo.Protocol.AnthropicMessages.Answer

/-! The resolved limits in runs of the machine. It closes tool calls without looking at the
depth of their input, and validates the answer under the official limits, so an event
takes a run beyond its limits exactly when it closes or ends something that exceeds them. -/

namespace Philo.AnthropicMessages

open Result MessagesStateMachine

variable {Schema : Type} {library : WireLibrary Schema}
  {machine next final : MessagesStateMachine Schema} {inputs : List SseEvent}
  {events emitted : List AssistantEvent} {wire : WireEvent}

def ClosesTooDeep (library : WireLibrary Schema) (machine : MessagesStateMachine Schema)
    (wire : WireEvent) : Prop :=
  ∃ value, ClosesInput library machine wire value ∧
    machine.limits.maxSchemaDepth < ToolSchema.jsonDepth value

def EndsBeyond (library : WireLibrary Schema) (machine : MessagesStateMachine Schema)
    (wire : WireEvent) : Prop :=
  (∃ stop, wire = .messageStop stop) ∧
    (∃ schema, machine.terminal.responseFormat = .jsonSchema schema) ∧
      machine.finishReason = some .stop ∧ machine.toolCalls = 0 ∧
        ∃ value, library.fromStr (machine.terminal.textBuffer.getD "") = .ok value ∧
          ¬ machine.limits.Allows value

def ExceedsLimits (library : WireLibrary Schema) (machine : MessagesStateMachine Schema)
    (event : SseEvent) : Prop :=
  ∃ wire, decodeEvent library event = .ok wire ∧
    (ClosesTooDeep library machine wire ∨ EndsBeyond library machine wire)

/-! ## Within the limits -/

def EndsShallow (limits : ResponseLimits) (machine : MessagesStateMachine Schema)
    (seen : List AssistantEvent) : Prop :=
  machine.limits = limits ∧ ∀ index call, .toolCallEnd index call ∈ seen →
    ToolSchema.jsonDepth call.arguments.value ≤ limits.maxSchemaDepth

theorem accept_endsShallow {limits : ResponseLimits} {event : SseEvent}
    {seen : List AssistantEvent} (within : ¬ ExceedsLimits library machine event)
    (shallow : EndsShallow limits machine seen)
    (accepted : accept library machine event = .ok (next, events)) :
    EndsShallow limits next (seen ++ events) := by
  rcases shallow with ⟨rfl, shallow⟩
  refine ⟨(accept_spoken accepted).limits, fun index call ended => ?_⟩
  rcases List.mem_append.mp ended with earlier | new
  · exact shallow index call earlier
  · rcases step_of_accept accepted with ⟨_, wire, decoded, step⟩
    rcases step.account with utters | ⟨_, _, _, rfl⟩
    · by_contra tooDeep
      exact within ⟨wire, decoded, .inl ⟨_, utters.ends index call new, Nat.not_le.mp tooDeep⟩⟩
    · cases new

def AnswerAllowed (library : WireLibrary Schema) (machine : MessagesStateMachine Schema) :
    Prop :=
  machine.terminal.validated = true →
    (∃ schema, machine.terminal.responseFormat = .jsonSchema schema) →
      machine.finishReason = some .stop → machine.toolCalls = 0 →
        ∀ value, library.fromStr (machine.terminal.textBuffer.getD "") = .ok value →
          machine.limits.Allows value

theorem accept_answerAllowed {event : SseEvent}
    (within : ¬ ExceedsLimits library machine event) (verified : Verified library machine)
    (accepted : accept library machine event = .ok (next, events)) :
    AnswerAllowed library next := by
  rcases step_of_accept accepted with ⟨notTerminal, wire, decoded, step⟩
  rcases step.account with utters | ⟨stops, _, ⟨_, rfl⟩, _⟩
  · intro validated
    exact absurd (verified (utters.validated.symm.trans validated)).1 notTerminal
  · intro _ hasSchema stopped noTools value parsed
    by_contra beyond
    exact within
      ⟨wire, decoded, .inr ⟨stops, hasSchema, stopped, noTools, value, parsed, beyond⟩⟩

theorem run_within {limits : ResponseLimits}
    (within : ∀ later event, (producer library).Takes machine inputs later
      event → ¬ ExceedsLimits library later event)
    (sameLimits : machine.limits = limits) (unvalidated : machine.terminal.validated = false)
    (accepted : (producer library).run machine inputs =
      .ok (final, emitted)) :
    EndsShallow limits final emitted ∧ AnswerAllowed library final := by
  have holds : EndsShallow limits machine [] ∧ Verified library machine ∧
      AnswerAllowed library machine := by
    refine ⟨⟨sameLimits, by simp⟩, ?_, ?_⟩
    all_goals
      intro validated
      exact absurd (validated.symm.trans unvalidated) (by decide)
  have kept := Producer.run_history (producer library)
    (fun later event => ¬ ExceedsLimits library later event)
    (fun state seen => EndsShallow limits state seen ∧ Verified library state ∧
      AnswerAllowed library state)
    (fun good holds step => ⟨accept_endsShallow good holds.1 step,
      accept_verified holds.2.1 step, accept_answerAllowed good holds.2.1 step⟩)
    within holds accepted
  exact ⟨kept.1, kept.2.2⟩

/-! ## Beyond the limits -/

section Beyond

variable {event : SseEvent} (decoded : decodeEvent library event = .ok wire)
  (accepted : accept library machine event = .ok (next, events))

include decoded accepted

theorem ends_of_closesInput {value : Json} (closes : ClosesInput library machine wire value) :
    ∃ index call, .toolCallEnd index call ∈ events ∧ call.arguments.value = value := by
  rcases step_of_accept accepted with ⟨_, wire', decoded', step⟩
  cases decoded.symm.trans decoded'
  rcases closes with ⟨stop, index, id, name, arguments, rfl, found, parsed⟩
  cases step with
  | closed _ found' closes =>
    cases found.symm.trans found'
    cases closes with
    | toolUse parsed' =>
      cases parsed.symm.trans parsed'
      exact ⟨index, _, List.mem_singleton_self _, rfl⟩

theorem finish_of_endsBeyond (beyond : EndsBeyond library machine wire) :
    next.phase = .terminal ∧ events = [] ∧ next.finish = .ok [.done .stop] := by
  rcases step_of_accept accepted with ⟨_, wire', decoded', step⟩
  cases decoded.symm.trans decoded'
  rcases beyond with ⟨⟨stop, rfl⟩, _, stopped, _⟩
  cases step
  exact ⟨rfl, rfl, finish_eq_ok.mpr ⟨rfl, rfl, .stop, stopped, rfl⟩⟩

end Beyond

theorem run_terminal (atEnd : machine.phase = .terminal)
    (accepted : (producer library).run machine inputs =
      .ok (final, emitted)) : final = machine ∧ emitted = [] := by
  cases inputs with
  | nil =>
    cases accepted
    exact ⟨rfl, rfl⟩
  | cons event rest =>
    rcases (producer library).run_cons_eq_ok.mp accepted with
      ⟨_, _, _, step, _, _⟩
    exact absurd atEnd (step_of_accept step).1

end Philo.AnthropicMessages
