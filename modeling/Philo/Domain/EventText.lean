import Philo.Domain.Event
import Philo.Foundation.KeyedText

/-! The text that assistant events carry, in the order in which it arrives. -/

namespace Philo

open Result Std KeyedText

def textPieces (events : List AssistantEvent) : List (Nat × String) :=
  events.filterMap fun
    | .textDelta index delta => some (index.toNat, delta)
    | _ => none

variable {events : List AssistantEvent}

theorem textPieces_append (first second : List AssistantEvent) :
    textPieces (first ++ second) = textPieces first ++ textPieces second :=
  List.filterMap_append

theorem mem_textPieces {piece : Nat × String} : piece ∈ textPieces events ↔
      ∃ index delta, .textDelta index delta ∈ events ∧ (index.toNat, delta) = piece := by
  rw [textPieces, List.mem_filterMap]
  constructor
  · rintro ⟨event, member, carried⟩
    cases event with
    | textDelta index delta => exact ⟨index, delta, member, Option.some.inj carried⟩
    | _ => cases carried
  · rintro ⟨index, delta, member, rfl⟩
    exact ⟨_, member, rfl⟩

def answerText (events : List AssistantEvent) : String := joined (textPieces events)

theorem answerText_append (first second : List AssistantEvent) :
    answerText (first ++ second) = answerText first ++ answerText second := by
  rw [answerText, textPieces_append, joined_append]
  rfl

/-- The event carries no answer text, starts neither a tool call nor a refusal, and ends
no tool call. -/
def AssistantEvent.isQuiet : AssistantEvent → Bool
  | .textDelta .. | .toolCallStart .. | .toolCallEnd .. | .refusalStart _ => false
  | _ => true

def startsTool (events : List AssistantEvent) : Bool :=
  events.any fun
    | .toolCallStart .. => true
    | _ => false

def startsRefusal (events : List AssistantEvent) : Bool :=
  events.any fun
    | .refusalStart _ => true
    | _ => false

theorem startsTool_append (first second : List AssistantEvent) :
    startsTool (first ++ second) = (startsTool first || startsTool second) :=
  List.any_append

theorem startsRefusal_append (first second : List AssistantEvent) :
    startsRefusal (first ++ second) = (startsRefusal first || startsRefusal second) :=
  List.any_append

theorem quiet_events (quiet : ∀ event ∈ events, event.isQuiet = true) :
    textPieces events = [] ∧ startsTool events = false ∧ startsRefusal events = false ∧
      ∀ index call, .toolCallEnd index call ∉ events := by
  refine ⟨List.filterMap_eq_nil_iff.mpr fun event member => ?_, List.any_eq_false.mpr fun event
    member => ?_, List.any_eq_false.mpr fun event member => ?_, fun index call member => nomatch
    quiet _ member⟩
  all_goals
    have silent := quiet event member
    cases event with
    | textDelta | toolCallStart | toolCallEnd | refusalStart => cases silent
    | _ => simp

end Philo
