import Philo.Client.Moves

/-! The lifecycle trace of a call: it begins with `RequestStarted`, and a call that is over
has told its observer how it ended, as long as nobody dropped its future while it was
still starting. -/

namespace Philo

namespace Yield

def isEvent : Yield → Bool
  | .event _ _ => true
  | .failed _ | .ended => false

def isFinal : Yield → Bool
  | .event _ (.done _) | .failed _ => true
  | .event _ _ | .ended => false

end Yield

/-- At most one `Done` or error, and after it only the end of the stream. -/
def YieldsOnce (items : List Yield) : Prop :=
  ∃ events ends, items = events ++ ends ∧
    (∀ item ∈ events, item.isEvent = true ∧ item.isFinal = false) ∧
    (ends = [] ∨ ∃ final after, ends = final :: after ∧ final.isFinal = true ∧
      ∀ item ∈ after, item = .ended)

/-- What holds of the observer's events and of the stream's items, in every state. -/
structure LifecycleTrace (call : Call) : Prop where
  started : call.phase ≠ .unpolled → call.phase ≠ .discarded →
    ∃ rest, call.log.observed = .requestStarted :: rest ∧ .requestStarted ∉ rest
  ended : call.phase = .gone → ∃ earlier last, call.log.observed = earlier ++ [last] ∧
    last.isTerminal = true ∧ ∀ kind ∈ earlier, kind.isTerminal = false
  yields : YieldsOnce call.log.yielded

theorem LifecycleTrace.exists_terminal {call : Call} (trace : LifecycleTrace call)
    (isGone : call.phase = .gone) : ∃ kind ∈ call.log.observed, kind.isTerminal = true := by
  rcases trace.ended isGone with ⟨earlier, last, same, terminal, _⟩
  refine ⟨last, ?_, terminal⟩
  rw [same]
  simp

/-! ## Open and closed traces -/

def Begun (kinds : List LifecycleEventKind) : Prop :=
  ∃ rest, kinds = .requestStarted :: rest ∧ ∀ kind ∈ rest, kind.isInner = true

def Finished (kinds : List LifecycleEventKind) : Prop :=
  ∃ earlier last, kinds = earlier ++ [last] ∧ Begun earlier ∧ last.isTerminal = true

theorem not_isTerminal_of_isInner {kind : LifecycleEventKind} (inner : kind.isInner = true) :
    kind.isTerminal = false := by
  simpa using (Bool.and_eq_true_iff.mp inner).2

theorem ne_requestStarted_of_isInner {kind : LifecycleEventKind}
    (inner : kind.isInner = true) : kind ≠ .requestStarted := by
  simpa using (Bool.and_eq_true_iff.mp inner).1

section Traces

variable {kinds more : List LifecycleEventKind}

theorem Begun.append (begun : Begun kinds) (inner : ∀ kind ∈ more, kind.isInner = true) :
    Begun (kinds ++ more) := by
  rcases begun with ⟨rest, rfl, restInner⟩
  refine ⟨rest ++ more, rfl, ?_⟩
  intro kind member
  rcases List.mem_append.mp member with before | after
  · exact restInner kind before
  · exact inner kind after

theorem Begun.finish (begun : Begun kinds) {last : LifecycleEventKind}
    (terminal : last.isTerminal = true) : Finished (kinds ++ [last]) :=
  ⟨kinds, last, rfl, begun, terminal⟩

theorem Begun.not_isTerminal (begun : Begun kinds) : ∀ kind ∈ kinds, kind.isTerminal = false := by
  rcases begun with ⟨rest, rfl, inner⟩
  intro kind member
  rcases List.mem_cons.mp member with rfl | isRest
  · rfl
  · exact not_isTerminal_of_isInner (inner kind isRest)

theorem Begun.started (begun : Begun kinds) :
    ∃ rest, kinds = .requestStarted :: rest ∧ .requestStarted ∉ rest := by
  rcases begun with ⟨rest, same, inner⟩
  exact ⟨rest, same, fun member => ne_requestStarted_of_isInner (inner _ member) rfl⟩

theorem Finished.started (finished : Finished kinds) :
    ∃ rest, kinds = .requestStarted :: rest ∧ .requestStarted ∉ rest := by
  rcases finished with ⟨earlier, last, rfl, begun, terminal⟩
  rcases begun.started with ⟨rest, rfl, absent⟩
  refine ⟨rest ++ [last], rfl, ?_⟩
  intro member
  rcases List.mem_append.mp member with before | isLast
  · exact absent before
  · rw [← List.mem_singleton.mp isLast] at terminal
    cases terminal

end Traces

def OpenYields (items : List Yield) : Prop :=
  ∀ item ∈ items, item.isEvent = true ∧ item.isFinal = false

def FinishedYields (items : List Yield) : Prop :=
  ∃ events final after, items = events ++ final :: after ∧ OpenYields events ∧
    final.isFinal = true ∧ ∀ item ∈ after, item = .ended

section Yields

variable {items : List Yield}

theorem OpenYields.yieldsOnce (unfinished : OpenYields items) : YieldsOnce items :=
  ⟨items, [], (List.append_nil items).symm, unfinished, .inl rfl⟩

theorem OpenYields.append (unfinished : OpenYields items) {item : Yield}
    (event : item.isEvent = true) (notFinal : item.isFinal = false) :
    OpenYields (items ++ [item]) := by
  intro member isMember
  rcases List.mem_append.mp isMember with before | isItem
  · exact unfinished member before
  · rw [List.mem_singleton.mp isItem]
    exact ⟨event, notFinal⟩

theorem OpenYields.finish (unfinished : OpenYields items) {final : Yield}
    (isFinal : final.isFinal = true) : FinishedYields (items ++ [final]) :=
  ⟨items, final, [], rfl, unfinished, isFinal, by simp⟩

theorem FinishedYields.yieldsOnce (finished : FinishedYields items) : YieldsOnce items := by
  rcases finished with ⟨events, final, after, rfl, unfinished, isFinal, onlyEnds⟩
  exact ⟨events, final :: after, rfl, unfinished, .inr ⟨final, after, rfl, isFinal, onlyEnds⟩⟩

theorem FinishedYields.append_ended (finished : FinishedYields items) :
    FinishedYields (items ++ [.ended]) := by
  rcases finished with ⟨events, final, after, rfl, unfinished, isFinal, onlyEnds⟩
  refine ⟨events, final, after ++ [.ended], by simp, unfinished, isFinal, ?_⟩
  intro item member
  rcases List.mem_append.mp member with before | isEnd
  · exact onlyEnds item before
  · exact List.mem_singleton.mp isEnd

end Yields

/-! ## The invariant of a call -/

inductive TraceStatus : Phase → Bool → List LifecycleEventKind → List Yield → Prop
  | unpolled {terminal : Bool} {kinds : List LifecycleEventKind} {items : List Yield}
      (unended : terminal = false) (noKinds : kinds = []) (noItems : items = []) :
      TraceStatus .unpolled terminal kinds items
  | discarded {terminal : Bool} {kinds : List LifecycleEventKind} {items : List Yield}
      (unended : terminal = false) (noKinds : kinds = []) (noItems : items = []) :
      TraceStatus .discarded terminal kinds items
  | live {phase : Phase} {terminal : Bool} {kinds : List LifecycleEventKind}
      {items : List Yield} (unended : terminal = false) (live : phase.isLive = true)
      (begun : Begun kinds) (unfinished : OpenYields items) :
      TraceStatus phase terminal kinds items
  | ended {stream : StreamState} {terminal : Bool} {kinds : List LifecycleEventKind}
      {items : List Yield} (ended : terminal = true) (isOver : stream.terminal = true)
      (finished : Finished kinds) (yields : FinishedYields items) :
      TraceStatus (.streaming stream) terminal kinds items
  | gone {terminal : Bool} {kinds : List LifecycleEventKind} {items : List Yield}
      (ended : terminal = true) (finished : Finished kinds) (yields : YieldsOnce items) :
      TraceStatus .gone terminal kinds items

namespace TraceStatus

variable {phase : Phase} {terminal : Bool} {kinds : List LifecycleEventKind}
  {items : List Yield}

theorem started (status : TraceStatus phase terminal kinds items)
    (polled : phase ≠ .unpolled) (kept : phase ≠ .discarded) :
    ∃ rest, kinds = .requestStarted :: rest ∧ .requestStarted ∉ rest := by
  cases status with
  | unpolled => exact absurd rfl polled
  | discarded => exact absurd rfl kept
  | live _ _ begun _ => exact begun.started
  | ended _ _ finished _ => exact finished.started
  | gone _ finished _ => exact finished.started

theorem finished (status : TraceStatus phase terminal kinds items) (isGone : phase = .gone) :
    Finished kinds := by
  cases status with
  | unpolled | discarded | ended => cases isGone
  | live _ live =>
    rw [isGone] at live
    cases live
  | gone _ finished _ => exact finished

theorem yieldsOnce (status : TraceStatus phase terminal kinds items) : YieldsOnce items := by
  cases status with
  | unpolled _ _ noItems => exact OpenYields.yieldsOnce (by simp [OpenYields, noItems])
  | discarded _ _ noItems => exact OpenYields.yieldsOnce (by simp [OpenYields, noItems])
  | live _ _ _ unfinished => exact unfinished.yieldsOnce
  | ended _ _ _ yields => exact yields.yieldsOnce
  | gone _ _ yields => exact yields

theorem of_live (status : TraceStatus phase terminal kinds items) (live : phase.isLive = true) :
    terminal = false ∧ Begun kinds ∧ OpenYields items := by
  cases status with
  | unpolled | discarded | gone => cases live
  | live unended _ begun unfinished => exact ⟨unended, begun, unfinished⟩
  | ended _ isOver => simp [Phase.isLive, isOver] at live

theorem of_ended {stream : StreamState}
    (status : TraceStatus (.streaming stream) terminal kinds items)
    (isOver : stream.terminal = true) :
    terminal = true ∧ Finished kinds ∧ FinishedYields items := by
  cases status with
  | live _ live => simp [Phase.isLive, isOver] at live
  | ended ended _ finished yields => exact ⟨ended, finished, yields⟩

theorem of_unpolled (status : TraceStatus .unpolled terminal kinds items) :
    terminal = false ∧ kinds = [] ∧ items = [] := by
  cases status with
  | unpolled unended noKinds noItems => exact ⟨unended, noKinds, noItems⟩
  | live _ live => cases live

end TraceStatus

structure Traced (call : Call) : Prop where
  status : TraceStatus call.phase call.terminal call.log.observed call.log.yielded
  busy : call.point.isBusy = true → call.phase.isLive = true

theorem Traced.lifecycleTrace {call : Call} (traced : Traced call) : LifecycleTrace call where
  started := traced.status.started
  ended isGone := by
    rcases traced.status.finished isGone with ⟨earlier, last, same, begun, terminal⟩
    exact ⟨earlier, last, same, terminal, begun.not_isTerminal⟩
  yields := traced.status.yieldsOnce

end Philo
