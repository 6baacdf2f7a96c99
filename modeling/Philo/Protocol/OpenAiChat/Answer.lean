import Philo.Protocol.OpenAiChat.Spoken

/-! Whole runs of the machine: the text that it validates is the text that it emitted, and
that text went to one block. -/

namespace Philo.OpenAiChat

open Result KeyedText ChatStateMachine

variable {Schema : Type} {library : WireLibrary Schema}
  {machine next final : ChatStateMachine Schema} {inputs : List SseEvent}
  {events emitted : List AssistantEvent}

theorem run_spoken (accepted : (producer library).run machine inputs =
      .ok (final, emitted)) : Spoken machine final emitted :=
  Producer.run_history _ (fun _ _ => True) (Spoken machine)
    (fun _ spoken step => spoken.trans (accept_spoken step)) (fun _ _ _ => trivial)
    (Utters.refl machine).toSpoken accepted

/-- A machine that has validated is at its end, and what it validated was accepted. -/
def Verified (library : WireLibrary Schema) (machine : ChatStateMachine Schema) : Prop :=
  machine.terminal.validated = true →
    machine.seenDone = true ∧ ∃ reason, machine.finishReason = some reason ∧
      Succeeds (validateStructuredResponse library.toJsonLibrary
        machine.terminal.responseFormat reason (machine.terminal.textBuffer.getD "")
        (!machine.tools.isEmpty) (decide (machine.refusal ≠ .notStarted))
        machine.terminal.schemaLimits)

theorem accept_verified {event : SseEvent} (verified : Verified library machine)
    (accepted : accept library machine event = .ok (next, events)) : Verified library next := by
  rcases accept_account accepted with ⟨notSeen, utters | ⟨⟨reason, isReason, valid⟩, rfl, _⟩⟩
  · intro validated
    have seen := (verified (utters.validated.symm.trans validated)).1
    exact absurd (seen.symm.trans notSeen) (by decide)
  · exact fun _ => ⟨rfl, reason, isReason, valid⟩

theorem run_verified (verified : Verified library machine)
    (accepted : (producer library).run machine inputs =
      .ok (final, emitted)) : Verified library final :=
  Producer.run_invariant _ (Verified library)
    (fun _ _ _ _ holds step => accept_verified holds step) verified accepted

theorem finish_validated {context : StreamContext} {format : ResponseFormat Schema}
    {limits : ResponseLimits} {compat : ResponseCompat} {last : List AssistantEvent}
    (accepted : (producer library).run
      (.new context format limits compat) inputs = .ok (final, emitted))
    (finished : final.finish = .ok last) :
    final.terminal.validated = true ∧ ∃ reason, last = [.done reason] ∧
      Succeeds (validateStructuredResponse library.toJsonLibrary format reason
        (final.terminal.textBuffer.getD "") (startsTool emitted) (startsRefusal emitted)
        ⟨2 ^ 64 - 1, limits.maxSchemaDepth, limits.maxJsonArrayItems⟩) := by
  have spoken := run_spoken accepted
  have verified := run_verified (fun isTrue => absurd isTrue Bool.false_ne_true) accepted
  simp only [finish, bind_eq_ok, reject_eq_ok, exists_const, okOr_eq_ok,
    Except.ok.injEq, Bool.not_eq_false] at finished
  rcases finished with ⟨_, validated, _, reason, isReason, rfl⟩
  rcases verified validated with ⟨_, reason', isReason', valid⟩
  cases isReason.symm.trans isReason'
  have tools : (!final.tools.isEmpty) = startsTool emitted := by
    rw [spoken.tools]
    exact Bool.false_or _
  have refusal : decide (final.refusal ≠ .notStarted) = startsRefusal emitted := by
    rw [spoken.refusal]
    exact Bool.false_or _
  rw [spoken.terminal.responseFormat, spoken.terminal.schemaLimits, tools, refusal] at valid
  exact ⟨validated, reason, rfl, valid⟩

theorem InOneBlock.inOrder {block : ContentBlockState} {pieces : List (Nat × String)}
    (inOne : InOneBlock block pieces) : InOrder pieces := by
  have within : ∃ key, ∀ piece ∈ pieces, piece.1 = key := by
    cases block with
    | notStarted => exact ⟨0, by simp [show pieces = [] from inOne]⟩
    | opened index => exact ⟨index.toNat, inOne⟩
    | closed => exact inOne
  rcases within with ⟨key, within⟩
  have nothing : InOrder ([] : List (Nat × String)) := .nil
  exact nothing.append_at (by simp) within

theorem run_inOrder (notStarted : machine.text = .notStarted)
    (accepted : (producer library).run machine inputs =
      .ok (final, emitted)) : InOrder (textPieces emitted) := by
  have inOne : InOneBlock machine.text [] := by
    rw [notStarted]
    rfl
  exact InOneBlock.inOrder ((run_spoken accepted).text [] inOne)

end Philo.OpenAiChat
