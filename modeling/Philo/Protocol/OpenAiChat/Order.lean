import Philo.Domain.EventOrder
import Philo.Protocol.OpenAiChat.Agreement

/-! The order of the events that the machine emits, on every run, also on one that fails. -/

namespace Philo.OpenAiChat

open Result Std ChatStateMachine PreparedChunk

variable {Schema : Type} {machine next : ChatStateMachine Schema}
  {library : WireLibrary Schema} {seen events : List AssistantEvent}

/-! ## The invariant -/

structure Ordered (machine : ChatStateMachine Schema) (seen : List AssistantEvent) : Prop where
  collected : ∃ announced collector told, Follows announced machine collector ∧
    collector.started = machine.started ∧ content told = content seen ∧
      Collector.consumer.acceptAll .fresh told = .ok collector
  unstarted : machine.started = false → machine.nextContentIndex = 0
  started : seen = [] → machine.started = false
  begins : ∀ event rest, seen = event :: rest → ∃ localRequestId providerRequestId
    generationId, event = .start localRequestId providerRequestId generationId

theorem Ordered.new (context : StreamContext) (format : ResponseFormat Schema)
    (limits : ResponseLimits) (compat : ResponseCompat) :
    Ordered (new context format limits compat) [] :=
  ⟨⟨_, .fresh, [], Follows.new context format limits compat, rfl, rfl, rfl⟩,
    fun _ => rfl, fun _ => rfl, by simp⟩

theorem Ordered.notDone (ordered : Ordered machine seen) (reason : FinishReason) :
    .done reason ∉ seen := by
  rcases ordered.collected with ⟨_, collector, told, follows, _, same, accepted⟩
  have describes := (acceptAll_fits accepted).2
  intro member
  rw [← mem_content rfl, ← same, mem_content rfl] at member
  have isDone := describes.marks.done.mpr ⟨reason, member⟩
  cases follows.notDone.symm.trans isDone

theorem Ordered.eventOrder (ordered : Ordered machine seen) : EventOrder seen := by
  rcases ordered.collected with ⟨_, collector, told, _, _, same, accepted⟩
  refine eventOrder_of_fits same ordered.begins
    (acceptAll_fits accepted).1 ?_
  rintro before reason after rfl
  exact absurd (by simp) (ordered.notDone reason)

/-! ## One event -/

def NoBlocks (events : List AssistantEvent) : Prop :=
  ∀ event ∈ events, event.starts? = none ∧ event.addresses? = none

theorem applyUsage_noBlocks {usage : Option UsageDetails}
    (applied : machine.applyUsage usage = .ok (next, events)) :
    content events = [] ∧ NoBlocks events := by
  rcases (applyUsage_eq_ok applied).2 with rfl | ⟨details, rfl | ⟨usage, rfl⟩⟩
  · exact ⟨rfl, by simp [NoBlocks]⟩
  · exact ⟨rfl, by simp [NoBlocks, AssistantEvent.starts?, AssistantEvent.addresses?]⟩
  · exact ⟨rfl, by simp [NoBlocks, AssistantEvent.starts?, AssistantEvent.addresses?]⟩

theorem emitStart_begins (machine : ChatStateMachine Schema) :
    (machine.started = true ∧ machine.emitStart.2 = []) ∨
      ∃ localRequestId providerRequestId generationId, machine.emitStart.2 =
        [.start localRequestId providerRequestId generationId] := by
  unfold emitStart
  split
  · next started => exact .inl ⟨started, rfl⟩
  · exact .inr ⟨_, _, _, rfl⟩

theorem chunk_ordered {chunk : ChatCompletionChunkWire} {prepared : PreparedChunk}
    {chosen : ChatStateMachine Schema} {choiceEvents usageEvents : List AssistantEvent}
    (ordered : Ordered machine seen)
    (choice : chunk.choices.head?.elim (.ok (machine.emitStart.1, [])) (fun choice =>
      applyChoice library machine.emitStart.1 choice
        prepared.finishReason) = .ok (chosen, choiceEvents))
    (usage : applyUsage { chosen with
        duplicateFinishSeen := chosen.duplicateFinishSeen || prepared.duplicateFinish }
      prepared.usage = .ok (next, usageEvents)) :
    Ordered next (seen ++ (machine.emitStart.2 ++ choiceEvents ++ usageEvents)) := by
  rcases ordered.collected with ⟨announced, collector, told, follows, sameStart, same, accepted⟩
  rcases emitStart_follows follows sameStart ordered.unstarted with
    ⟨begun, startAccepted, begunFollows, begunStarted, started, _⟩
  have steps : Steps library machine.emitStart.1 chosen choiceEvents :=
    steps_elim (fun _ => steps_applyChoice) choice
  rcases steps.carried begunFollows with
    ⟨chosenAnnounced, reached, choiceAccepted, chosenFollows, aside, reachedAside⟩
  simp only [machineAside, collectorAside, Prod.mk.injEq] at aside reachedAside
  have chosenStarted := aside.1.trans started
  have noContent := (applyUsage_noBlocks usage).1
  rcases applyUsage_eq_ok usage with ⟨⟨usageDetails, rfl⟩, _⟩
  -- Only a machine that has not started emits nothing before this.
  have begins : seen = [] → ∃ localRequestId providerRequestId generationId,
      machine.emitStart.2 = [.start localRequestId providerRequestId generationId] := by
    intro nothing
    rcases emitStart_begins machine with ⟨isStarted, _⟩ | starts
    · rw [ordered.started nothing] at isStarted
      cases isStarted
    · exact starts
  refine ⟨⟨chosenAnnounced, reached, told ++ (machine.emitStart.2 ++ choiceEvents),
    chosenFollows.congr rfl rfl rfl rfl rfl, ?_, ?_, ?_⟩, ?_, ?_, ?_⟩
  · exact reachedAside.1.trans (begunStarted.trans chosenStarted.symm)
  · simp only [content_append, same, noContent, List.append_nil]
  · rw [Consumer.acceptAll_append, accepted, ok_bind, Consumer.acceptAll_append, startAccepted,
      ok_bind, choiceAccepted]
  · intro unstarted
    cases chosenStarted.symm.trans unstarted
  · intro nothing
    rcases List.append_eq_nil_iff.mp nothing with ⟨noneSeen, noneEmitted⟩
    rcases begins noneSeen with ⟨_, _, _, starts⟩
    rw [starts] at noneEmitted
    cases noneEmitted
  · intro event rest isFirst
    cases seen with
    | cons first others =>
      cases isFirst
      exact ordered.begins _ _ rfl
    | nil =>
      rcases begins rfl with ⟨_, _, _, starts⟩
      rw [starts] at isFirst
      cases isFirst
      exact ⟨_, _, _, rfl⟩

theorem accept_ordered {event : SseEvent} (ordered : Ordered machine seen)
    (accepted : accept library machine event = .ok (next, events)) :
    Ordered next (seen ++ events) := by
  rcases ordered.collected with ⟨announced, collector, told, follows, rest⟩
  cases (accept_cases accepted).2 with
  | marker =>
    rw [List.append_nil]
    exact ⟨⟨announced, collector, told, follows.congr rfl rfl rfl rfl rfl, rest⟩,
      ordered.unstarted, ordered.started, ordered.begins⟩
  | @chunk _ _ unknownFields generationId responseModel _ _ _ _ _ _ _ _ identity choice usage =>
    have observed : Ordered { machine with unknownFields, generationId, responseModel } seen :=
      ⟨⟨announced, collector, told, follows.congr rfl rfl rfl rfl rfl, rest⟩,
        ordered.unstarted, ordered.started, ordered.begins⟩
    subst identity
    exact chunk_ordered observed choice usage

theorem finish_ordered (ordered : Ordered machine seen)
    (finished : machine.finish = .ok events) : EventOrder (seen ++ events) := by
  simp only [finish, bind_eq_ok, reject_eq_ok, okOr_eq_ok, exists_const,
    Except.ok.injEq, Bool.not_eq_true] at finished
  rcases finished with ⟨_, _, closed, reason, finishReason, rfl⟩
  rcases ordered.collected with ⟨announced, collector, told, follows, _, same, accepted⟩
  rcases follows.collect_done closed finishReason with ⟨message, collected⟩
  simp only [Consumer.collect, bind_eq_ok] at collected
  rcases collected with ⟨final, lastAccepted, _⟩
  have toldAll : Collector.consumer.acceptAll .fresh (told ++ [.done reason]) = .ok final := by
    rw [Consumer.acceptAll_append, accepted, ok_bind, lastAccepted]
  have sameContent : content (told ++ [.done reason]) = content (seen ++ [.done reason]) := by
    rw [content_append, content_append, same]
  refine eventOrder_of_fits sameContent ?_
    (acceptAll_fits toldAll).1 ?_
  · intro event rest isFirst
    cases seen with
    | cons first others =>
      cases isFirst
      exact ordered.begins _ _ rfl
    | nil =>
      have noContent := ordered.unstarted (ordered.started rfl)
      exact absurd noContent (follows.finished reason finishReason).1
  · intro before earlier after split
    rcases List.eq_nil_or_concat after with rfl | ⟨rest, last, rfl⟩
    · rfl
    · have same : seen ++ [.done reason] = (before ++ .done earlier :: rest) ++ [last] := by
        rw [split]
        simp
      rw [(List.append_inj' same rfl).1] at ordered
      exact absurd (by simp) (ordered.notDone earlier)

/-! ## After the finish reason -/

theorem applyDelta_of_empty {delta : DeltaWire} (empty : deltaIsEmpty delta = true)
    (applied : applyDelta library machine delta = .ok (next, events)) :
    next = machine ∧ events = [] := by
  simp only [deltaIsEmpty, Bool.and_eq_true] at empty
  rcases empty with ⟨⟨⟨⟨⟨_, noContent⟩, noRefusal⟩, noCalls⟩, _⟩, _⟩
  have silent : ∀ (text : Option String) push, text.all String.isEmpty = true →
      ∀ machine : ChatStateMachine Schema, machine.pushNonEmpty push text =
        .ok (machine, []) := by
    intro text push isEmpty machine
    cases text with
    | none => rfl
    | some content =>
      have noText : content = "" := by simpa using isEmpty
      simp [pushNonEmpty, noText]
  have noTools : delta.toolCalls.getD [] = [] := by
    cases calls : delta.toolCalls with
    | none => rfl
    | some list => simpa [calls] using noCalls
  simp only [applyDelta, silent _ _ noContent, silent _ _ noRefusal, noTools,
    ok_bind, pushToolDeltas, Except.ok.injEq, Prod.mk.injEq] at applied
  exact ⟨applied.1.symm, applied.2.symm⟩

/-- After the finish reason a chunk can repeat it without a payload, and report usage. -/
theorem validate_after_finish {chunk : ChatCompletionChunkWire} {observed : FinishReason}
    {seenTwice : Bool} {finishCompat : FinishReasonCompat} {usageCompat : UsageCompat}
    {prepared : PreparedChunk} (validated : validate chunk (some observed)
      seenTwice finishCompat usageCompat = .ok prepared) :
    prepared.finishReason = none ∧
      ∀ choice ∈ chunk.choices.head?, choice.delta.all deltaIsEmpty = true := by
  simp only [validate, bind_eq_ok, Prod.exists, Except.ok.injEq] at validated
  rcases validated with ⟨_, _, _, _, finishReason, _, checked, _, _, rfl⟩
  cases first : chunk.choices.head? with
  | none =>
    rw [first] at checked
    cases checked
    exact ⟨rfl, by simp⟩
  | some choice =>
    rw [first] at checked
    simp only [Option.elim, validateChoice, validateRepeatedChoice, bind_eq_ok, reject_eq_ok,
      exists_const, Bool.not_eq_false, Except.ok.injEq, Prod.mk.injEq] at checked
    rcases checked with ⟨_, _, _, _, _, _, _, _, empty, rfl, rfl⟩
    refine ⟨rfl, fun other isOther => ?_⟩
    cases isOther
    exact empty

theorem emitStart_noBlocks (machine : ChatStateMachine Schema) : NoBlocks machine.emitStart.2 ∧
      machine.emitStart.1.finishReason = machine.finishReason := by
  unfold emitStart
  split
  · exact ⟨by simp [NoBlocks], rfl⟩
  · exact ⟨by simp [NoBlocks, AssistantEvent.starts?, AssistantEvent.addresses?], rfl⟩

theorem NoBlocks.append {first second : List AssistantEvent} (noFirst : NoBlocks first)
    (noSecond : NoBlocks second) : NoBlocks (first ++ second) := by
  intro event member
  exact (List.mem_append.mp member).elim (noFirst event) (noSecond event)

theorem accept_after_finish {event : SseEvent} {reason : FinishReason}
    (finished : machine.finishReason = some reason)
    (accepted : accept library machine event = .ok (next, events)) :
    next.finishReason = some reason ∧ NoBlocks events := by
  cases (accept_cases accepted).2 with
  | marker => exact ⟨finished, by simp [NoBlocks]⟩
  | @chunk chunk _ _ _ _ observed chosen _ choiceEvents _ _ _ validated identity choice usage =>
    rw [finished] at validated
    rcases validate_after_finish validated with ⟨noFinish, empty⟩
    rcases emitStart_noBlocks observed with ⟨startNoBlocks, startFinish⟩
    have unchanged : chosen = observed.emitStart.1 ∧ choiceEvents = [] := by
      cases first : chunk.choices.head? with
      | none =>
        rw [first] at choice
        cases choice
        exact ⟨rfl, rfl⟩
      | some wire =>
        rw [first, noFinish] at choice
        simp only [Option.elim, applyChoice, bind_eq_ok, Prod.exists,
          Except.ok.injEq, Prod.mk.injEq] at choice
        rcases choice with ⟨middle, deltaEvents, delta, _, _, ⟨rfl, rfl⟩, rfl, rfl⟩
        have isEmpty := empty wire (by rw [first]; rfl)
        cases hasDelta : wire.delta with
        | none =>
          rw [hasDelta] at delta
          cases delta
          exact ⟨rfl, rfl⟩
        | some content =>
          rw [hasDelta] at delta isEmpty
          rcases applyDelta_of_empty (by simpa using isEmpty) delta with ⟨rfl, rfl⟩
          exact ⟨rfl, rfl⟩
    rcases unchanged with ⟨rfl, rfl⟩
    have usageNoBlocks := (applyUsage_noBlocks usage).2
    rcases applyUsage_eq_ok usage with ⟨⟨usageDetails, rfl⟩, _⟩
    refine ⟨startFinish.trans (identity ▸ finished), ?_⟩
    rw [List.append_nil]
    exact startNoBlocks.append usageNoBlocks

theorem finish_noBlocks (finished : machine.finish = .ok events) : NoBlocks events := by
  simp only [finish, bind_eq_ok, Except.ok.injEq] at finished
  rcases finished with ⟨_, _, _, _, _, _, _, _, rfl⟩
  simp [NoBlocks, AssistantEvent.starts?, AssistantEvent.addresses?]

theorem emitted_after_finish {reason : FinishReason}
    (finished : machine.finishReason = some reason) (inputs : List SseEvent) :
    NoBlocks ((producer library).emitted machine inputs) := by
  have atFirst : machine.finishReason = some reason ∧ NoBlocks [] := ⟨finished, by simp [NoBlocks]⟩
  refine (producer library).emitted_history
    (fun machine seen => machine.finishReason = some reason ∧ NoBlocks seen) NoBlocks
    (fun holds => holds.2) ?_ ?_ atFirst inputs
  · intro state input next seen outputs holds accepted
    rcases accept_after_finish holds.1 accepted with ⟨still, noBlocks⟩
    exact ⟨still, holds.2.append noBlocks⟩
  · intro state seen outputs holds ended
    exact holds.2.append (finish_noBlocks ended)

/-! ## Runs -/

/-- OpenAI event order on every run, also on one that fails: what the machine emits before
the first error is in order, and nothing that it emits after the finish reason was applied
starts, continues or ends a block. -/
theorem emitted_in_order (library : WireLibrary Schema) (context : StreamContext)
    (format : ResponseFormat Schema) (limits : ResponseLimits) (compat : ResponseCompat)
    (inputs : List SseEvent) :
    EventOrder ((producer library).emitted
        (.new context format limits compat) inputs) ∧
      ∀ earlier later machine seen reason, inputs = earlier ++ later →
        (producer library).run (.new context format limits compat) earlier =
          .ok (machine, seen) → machine.finishReason = some reason →
            (producer library).emitted
                (.new context format limits compat) inputs =
              seen ++ (producer library).emitted machine later ∧
            NoBlocks ((producer library).emitted machine later) := by
  constructor
  · exact (producer library).emitted_history Ordered EventOrder
      Ordered.eventOrder accept_ordered finish_ordered
      (Ordered.new context format limits compat) inputs
  · rintro earlier later machine seen reason rfl reached finished
    exact ⟨Producer.emitted_append _ reached later, emitted_after_finish finished later⟩

def brokenInputs : List SseEvent := [⟨recordedStop.data, none⟩, ⟨"oops", none⟩]

theorem brokenInputs_in_order :
    ∃ machine seen, (producer (recordedLibrary [recordedStop])).run
        (.new recordedContext .text .official .openAiChatDefault)
        [⟨recordedStop.data, none⟩] = .ok (machine, seen) ∧
      machine.finishReason = some .stop ∧ seen.length = 5 ∧
      EventOrder ((producer (recordedLibrary [recordedStop])).emitted
        (.new recordedContext .text .official .openAiChatDefault) brokenInputs) ∧
      (producer (recordedLibrary [recordedStop])).emitted
          (.new recordedContext .text .official .openAiChatDefault) brokenInputs =
        seen ++ (producer (recordedLibrary [recordedStop])).emitted machine
          [⟨"oops", none⟩] ∧
      NoBlocks ((producer (recordedLibrary [recordedStop])).emitted machine
        [⟨"oops", none⟩]) := by
  have given : (((producer (recordedLibrary [recordedStop])).run
      (.new recordedContext .text .official .openAiChatDefault)
      [⟨recordedStop.data, none⟩]).map fun reached =>
        (reached.1.finishReason, reached.2.length)).toOption = some (some .stop, 5) := by
    decide +kernel
  rcases exists_ok_of_map given with ⟨⟨machine, seen⟩, reached, summary⟩
  simp only [Prod.mk.injEq] at summary
  have inOrder := emitted_in_order (recordedLibrary [recordedStop]) recordedContext .text
    .official .openAiChatDefault brokenInputs
  exact ⟨machine, seen, reached, summary.1, summary.2, inOrder.1,
    inOrder.2 _ _ machine seen .stop rfl reached summary.1⟩

end Philo.OpenAiChat
