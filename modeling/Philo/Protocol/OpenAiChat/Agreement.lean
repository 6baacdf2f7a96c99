import Philo.Protocol.OpenAiChat.ToolDeltas

/-! The machine and the collector agree exactly when no usage snapshot adds to
the first one. -/

namespace Philo.OpenAiChat

open Result Std ChatStateMachine PreparedChunk

variable {Schema : Type} {announced : Announced} {machine next : ChatStateMachine Schema}
  {collector : Collector} {library : WireLibrary Schema} {events : List AssistantEvent}

/-! ## The condition -/

def snapshot? (library : WireLibrary Schema) (compat : UsageCompat) (event : SseEvent) :
    Option UsageDetails :=
  if event.data = "[DONE]" then none
  else match library.chunk event.data with
    | .ok chunk => (validateUsage chunk.usage compat).toOption.join
    | .error _ => none

def snapshots (library : WireLibrary Schema) (compat : UsageCompat)
    (inputs : List SseEvent) : List UsageDetails :=
  inputs.filterMap (snapshot? library compat)

/-- Every later snapshot reports nothing but fields that the first one reported. -/
def StableUsage : List UsageDetails → Prop
  | [] => True
  | first :: later => ∀ details ∈ later, details.KnownWithin first

def StableFrom (first : Option UsageDetails) (later : List UsageDetails) : Prop :=
  StableUsage (first.toList ++ later)

theorem stableFrom_some_cons {first details : UsageDetails} {later : List UsageDetails} :
    StableFrom (some first) (details :: later) ↔
      details.KnownWithin first ∧ StableFrom (some first) later := by
  simp [StableFrom, StableUsage]

/-! ## Usage events -/

structure Related (machine : ChatStateMachine Schema) (collector : Collector) : Prop where
  follows : ∃ announced, Follows announced machine collector
  started : collector.started = machine.started
  unstarted : machine.started = false → machine.nextContentIndex = 0
  usageDetails : collector.usageDetails = machine.usageDetails
  unreported : machine.usageDetails = none → collector.usage = none

theorem Related.aside (related : Related machine collector) (unknownFields : TreeSet String)
    (generationId : Option GenerationId) (responseModel : Option String)
    (duplicateFinishSeen seenDone : Bool) (terminal : StructuredTerminal Schema) :
    Related { machine with
      unknownFields, generationId, responseModel
      duplicateFinishSeen, seenDone, terminal } collector := by
  rcases related.follows with ⟨announced, follows⟩
  exact ⟨⟨announced, follows.congr rfl rfl rfl rfl rfl⟩, related.started, related.unstarted,
    related.usageDetails, related.unreported⟩

theorem acceptAll_usage_first {details : UsageDetails} (notDone : collector.done = false)
    (noDetails : collector.usageDetails = none) (noUsage : collector.usage = none)
    (emitted : IsReport events details) : ∃ usage, Collector.consumer.acceptAll collector events =
      .ok { collector with usage, usageDetails := some details } := by
  rcases emitted with rfl | ⟨usage, rfl⟩
  · have accepted : Collector.consumer.accept collector (.detailedUsage details) = .ok _ :=
      Collector.accept_eq_ok.mpr
        ⟨notDone, Collector.apply_detailedUsage_eq_ok.mpr ⟨by simp [noDetails], rfl⟩⟩
    exact ⟨collector.usage, by simp [accepted]⟩
  · have accepted : Collector.consumer.accept collector (.usage usage) = .ok _ :=
      Collector.accept_eq_ok.mpr
        ⟨notDone, Collector.apply_usage_eq_ok.mpr ⟨by simp [noUsage], rfl⟩⟩
    have acceptedNext : Collector.consumer.accept { collector with usage := some usage }
        (.detailedUsage details) = .ok _ :=
      Collector.accept_eq_ok.mpr
        ⟨notDone, Collector.apply_detailedUsage_eq_ok.mpr ⟨by simp [noDetails], rfl⟩⟩
    exact ⟨some usage, by simp [accepted, acceptedNext]⟩

theorem acceptAll_usage_refused {previous details : UsageDetails}
    (reported : collector.usageDetails = some previous) (different : previous ≠ details)
    (emitted : IsReport events details) :
    ¬ Succeeds (Collector.consumer.acceptAll collector events) := by
  rintro ⟨final, accepted⟩
  rcases emitted with rfl | ⟨usage, rfl⟩
  · simp only [Consumer.acceptAll_cons, bind_eq_ok] at accepted
    rcases accepted with ⟨next, first, _⟩
    rcases Collector.apply_detailedUsage_eq_ok.mp (Collector.accept_eq_ok.mp first).2 with
      ⟨agrees, _⟩
    exact different (agrees previous reported)
  · simp only [Consumer.acceptAll_cons, bind_eq_ok] at accepted
    rcases accepted with ⟨middle, first, next, second, _⟩
    rcases Collector.apply_usage_eq_ok.mp (Collector.accept_eq_ok.mp first).2 with ⟨_, rfl⟩
    rcases Collector.apply_detailedUsage_eq_ok.mp (Collector.accept_eq_ok.mp second).2 with
      ⟨agrees, _⟩
    exact different (agrees previous reported)

/-- After a snapshot, or none, that is followed by `later`: either the collector
takes the events and the condition is passed on to `later`, or it refuses them
and the condition fails. -/
def Agrees (collector : Collector) (machine next : ChatStateMachine Schema)
    (events : List AssistantEvent) (usage : Option UsageDetails)
    (later : List UsageDetails) : Prop :=
  (∃ collected, Collector.consumer.acceptAll collector events = .ok collected ∧
    Related next collected ∧ next.responseCompat.usage = machine.responseCompat.usage ∧
      (StableFrom machine.usageDetails (usage.toList ++ later) ↔
        StableFrom next.usageDetails later)) ∨
  (¬ Succeeds (Collector.consumer.acceptAll collector events) ∧
    ¬ StableFrom machine.usageDetails (usage.toList ++ later))

theorem applyUsage_agrees (related : Related machine collector) {usage : Option UsageDetails}
    (someKnown : ∀ details, usage = some details → details.hasAnyKnown = true)
    (applied : machine.applyUsage usage = .ok (next, events)) (later : List UsageDetails) :
    Agrees collector machine next events usage later := by
  cases usage with
  | none =>
    cases applied
    exact .inl ⟨collector, rfl, related, rfl, Iff.rfl⟩
  | some details =>
    simp only [applyUsage, bind_eq_ok, mapError_eq_ok, Prod.exists,
      Except.ok.injEq, Prod.mk.injEq] at applied
    rcases applied with ⟨merged, outcome, joined, _, emitted, rfl, rfl⟩
    rcases related.follows with ⟨announced, follows⟩
    cases reported : machine.usageDetails with
    | none =>
      rw [reported] at joined
      rw [Agrees, reported]
      rcases mergeUsageDetails_first (someKnown details rfl) joined with ⟨rfl, emits⟩
      have isReport := usageEvents_eq_ok emitted
      rw [emits] at isReport
      rcases acceptAll_usage_first follows.notDone
          (related.usageDetails.trans reported) (related.unreported reported)
          isReport with ⟨usage, accepted⟩
      have sound := Collector.acceptAll_sound follows.sound accepted
      refine .inl ⟨_, accepted, ⟨⟨announced, ?_⟩, related.started, related.unstarted,
        rfl, by simp⟩, rfl, Iff.rfl⟩
      exact {
        sound
        notDone := follows.notDone
        next := follows.next
        linked := follows.linked
        tools := follows.tools.congr rfl rfl
        content := follows.content
        finished := follows.finished }
    | some previous =>
      rw [reported] at joined
      rw [Agrees, reported, Option.toList_some, List.singleton_append, stableFrom_some_cons]
      rcases mergeUsageDetails_later joined with
        ⟨within, rfl, rfl⟩ | ⟨notWithin, different, emits⟩
      · cases emitted
        refine .inl ⟨collector, rfl, ⟨⟨announced, follows.congr rfl rfl rfl rfl rfl⟩,
          related.started, related.unstarted, related.usageDetails.trans reported,
          by simp⟩, rfl, and_iff_right within⟩
      · have isReport := usageEvents_eq_ok emitted
        rw [emits] at isReport
        exact .inr ⟨acceptAll_usage_refused (related.usageDetails.trans reported)
          different.symm isReport, fun stable => notWithin stable.1⟩

/-! ## One event -/

theorem validateUsage_hasAnyKnown {usage : Option UsageWire} {compat : UsageCompat}
    {details : UsageDetails} (validated : validateUsage usage compat = .ok (some details)) :
    details.hasAnyKnown = true := by
  cases usage with
  | none => cases validated
  | some wire =>
    simp only [validateUsage, parseUsageDetails, bind_eq_ok] at validated
    rcases validated with
      ⟨_, _, _, _, _, _, _, _, _, _, _, _, _, _, validated⟩
    split at validated
    · cases validated
    · next known =>
        cases validated
        simpa using known

theorem validate_usage {chunk : ChatCompletionChunkWire} {observed : Option FinishReason}
    {duplicate : Bool} {finishCompat : FinishReasonCompat} {usageCompat : UsageCompat}
    {prepared : PreparedChunk}
    (validated : validate chunk observed duplicate finishCompat usageCompat =
      .ok prepared) :
    validateUsage chunk.usage usageCompat = .ok prepared.usage := by
  simp only [validate, bind_eq_ok, Prod.exists, Except.ok.injEq] at validated
  rcases validated with ⟨_, _, _, _, _, _, _, usage, parsed, rfl⟩
  exact parsed

theorem emitStart_follows (follows : Follows announced machine collector)
    (sameStart : collector.started = machine.started)
    (noContent : machine.started = false → machine.nextContentIndex = 0) : ∃ collected,
      Collector.consumer.acceptAll collector machine.emitStart.2 = .ok collected ∧
        Follows announced machine.emitStart.1 collected ∧ collected.started = true ∧
          machine.emitStart.1.started = true ∧ collected.usage = collector.usage ∧
            collected.usageDetails = collector.usageDetails := by
  unfold emitStart
  split
  · next started => exact ⟨collector, rfl, follows, sameStart.trans started, started, rfl, rfl⟩
  · next notStarted =>
      have unstarted : machine.started = false := by simpa using notStarted
      let collected : Collector := { collector with
        started := true
        localRequestId := some machine.context.localRequestId
        providerRequestId := machine.context.providerRequestId
        generationId := machine.generationId }
      have applied : collector.apply (.start machine.context.localRequestId
          machine.context.providerRequestId machine.generationId) = .ok collected := by
        simp [Collector.apply, Collector.acceptStart, reject, sameStart, unstarted,
          follows.next.trans (noContent unstarted), collected]
      have accepted := follows.acceptAll_one applied
      have stillFollows : Follows announced { machine with started := true } collected := {
        sound := Collector.acceptAll_sound follows.sound accepted
        notDone := follows.notDone
        next := follows.next
        linked := follows.linked
        tools := follows.tools.congr rfl rfl
        content := follows.content
        finished := follows.finished }
      exact ⟨collected, accepted, stillFollows, rfl, rfl, rfl, rfl⟩

theorem emitStart_frame (machine : ChatStateMachine Schema) :
    machine.emitStart.1.usageDetails = machine.usageDetails ∧
      machine.emitStart.1.responseCompat = machine.responseCompat := by
  unfold emitStart
  split <;> exact ⟨rfl, rfl⟩

theorem emitStart_related (related : Related machine collector) : ∃ collected,
      Collector.consumer.acceptAll collector machine.emitStart.2 = .ok collected ∧
        Related machine.emitStart.1 collected ∧ machine.emitStart.1.started = true ∧
          machine.emitStart.1.usageDetails = machine.usageDetails ∧
            machine.emitStart.1.responseCompat = machine.responseCompat := by
  rcases related.follows with ⟨announced, follows⟩
  rcases emitStart_follows follows related.started related.unstarted with
    ⟨collected, accepted, follows, collectedStarted, started, sameCore, sameDetails⟩
  rcases emitStart_frame machine with ⟨sameUsage, sameCompat⟩
  refine ⟨collected, accepted, ⟨⟨announced, follows⟩, ?_, ?_, ?_, ?_⟩, started, sameUsage,
    sameCompat⟩
  · rw [collectedStarted, started]
  · intro unstarted
    cases started.symm.trans unstarted
  · rw [sameDetails, sameUsage]
    exact related.usageDetails
  · rw [sameCore, sameUsage]
    exact related.unreported

theorem Carried.related (carried : Carried collector machine next events)
    (related : Related machine collector) (started : machine.started = true) :
    ∃ collected, Collector.consumer.acceptAll collector events = .ok collected ∧
      Related next collected ∧ next.usageDetails = machine.usageDetails ∧
        next.responseCompat.usage = machine.responseCompat.usage := by
  rcases carried with ⟨announced, collected, accepted, follows, aside, collectedAside⟩
  simp only [machineAside, collectorAside, Prod.mk.injEq] at aside collectedAside
  rcases aside with ⟨sameStarted, sameUsage, sameCompat⟩
  rcases collectedAside with ⟨sameCollectorStarted, sameCore, sameDetails⟩
  refine ⟨collected, accepted, ⟨⟨announced, follows⟩, ?_, ?_, ?_, ?_⟩, sameUsage, sameCompat⟩
  · rw [sameCollectorStarted, sameStarted]
    exact related.started
  · intro unstarted
    rw [sameStarted, started] at unstarted
    cases unstarted
  · rw [sameDetails, sameUsage]
    exact related.usageDetails
  · rw [sameCore, sameUsage]
    exact related.unreported

theorem chosen_related (related : Related machine collector)
    {chunk : ChatCompletionChunkWire} {finishReason : Option FinishReason}
    {chosen : ChatStateMachine Schema}
    (choice : chunk.choices.head?.elim (.ok (machine.emitStart.1, [])) (fun choice =>
      applyChoice library machine.emitStart.1 choice finishReason) =
        .ok (chosen, events)) :
    ∃ collected, Collector.consumer.acceptAll collector (machine.emitStart.2 ++ events) =
        .ok collected ∧ Related chosen collected ∧
      chosen.usageDetails = machine.usageDetails ∧
        chosen.responseCompat.usage = machine.responseCompat.usage := by
  rcases emitStart_related related with
    ⟨begun, startAccepted, begunRelated, started, startUsage, startCompat⟩
  rcases begunRelated.follows with ⟨_, begunFollows⟩
  have steps : Steps library machine.emitStart.1 chosen events :=
    steps_elim (fun _ => steps_applyChoice) choice
  rcases (steps.carried begunFollows).related begunRelated started with
    ⟨collected, choiceAccepted, chosenRelated, choiceUsage, choiceCompat⟩
  refine ⟨collected, ?_, chosenRelated, choiceUsage.trans startUsage,
    choiceCompat.trans (congrArg ResponseCompat.usage startCompat)⟩
  rw [Consumer.acceptAll_append, startAccepted, ok_bind, choiceAccepted]

/-! ## Agreement -/

def Fits (library : WireLibrary Schema) (machine : ChatStateMachine Schema)
    (_ : Collector) (inputs : List SseEvent) : Prop :=
  StableFrom machine.usageDetails (snapshots library machine.responseCompat.usage inputs)

theorem snapshots_cons (compat : UsageCompat) (input : SseEvent) (rest : List SseEvent) :
    snapshots library compat (input :: rest) =
      (snapshot? library compat input).toList ++ snapshots library compat rest := by
  cases reported : snapshot? library compat input <;> simp [snapshots, reported]

theorem Agrees.step {input : SseEvent} {rest : List SseEvent} {usage : Option UsageDetails}
    (reported : snapshot? library machine.responseCompat.usage input = usage)
    (agrees : Agrees collector machine next events usage
      (snapshots library machine.responseCompat.usage rest)) :
    (∃ collected, Collector.consumer.acceptAll collector events = .ok collected ∧
      Related next collected ∧
        (Fits library machine collector (input :: rest) ↔
          Fits library next collected rest)) ∨
    (¬ Succeeds (Collector.consumer.acceptAll collector events) ∧
      ¬ Fits library machine collector (input :: rest)) := by
  simp only [Fits, snapshots_cons, reported]
  rcases agrees with ⟨collected, accepted, related, sameCompat, passedOn⟩ | refused
  · rw [sameCompat]
    exact .inl ⟨collected, accepted, related, passedOn⟩
  · exact .inr refused

theorem accept_agrees : StepAgrees (producer library) Collector.consumer
    Related (Fits library) := by
  intro machine collector input rest next events related accepted
  cases (accept_cases accepted).2 with
  | marker isMarker =>
    have silent : snapshot? library machine.responseCompat.usage input = none := by
      simp [snapshot?, isMarker]
    exact Agrees.step silent (.inl ⟨collector, rfl, related.aside _ _ _ _ _ _, rfl, Iff.rfl⟩)
  | @chunk chunk prepared _ _ _ observed _ _ _ _ notMarker parsed validated identity choice usage =>
    have parsedUsage := validate_usage validated
    have reported : snapshot? library machine.responseCompat.usage input =
        prepared.usage := by
      simp [snapshot?, notMarker, parsed, parsedUsage, Except.toOption]
    subst identity
    rcases chosen_related (related.aside _ _ _ _ _ _) choice with
      ⟨collected, choiceAccepted, chosenRelated, sameUsage, sameCompat⟩
    refine Agrees.step reported ?_
    have known : ∀ details, prepared.usage = some details → details.hasAnyKnown = true :=
      fun details isSome => validateUsage_hasAnyKnown (parsedUsage.trans (congrArg _ isSome))
    rcases applyUsage_agrees (chosenRelated.aside _ _ _ _ _ _) known usage
        (snapshots library machine.responseCompat.usage rest) with
      ⟨final, usageAccepted, finalRelated, finalCompat, passedOn⟩ | ⟨refused, unstable⟩
    · refine .inl ⟨final, ?_, finalRelated, finalCompat.trans sameCompat, sameUsage ▸ passedOn⟩
      rw [Consumer.acceptAll_append, choiceAccepted, ok_bind, usageAccepted]
    · refine .inr ⟨?_, sameUsage ▸ unstable⟩
      rwa [Consumer.acceptAll_append, choiceAccepted, ok_bind]

theorem Follows.collect_done (follows : Follows announced machine collector)
    (closed : machine.hasOpenBlocks = false) {reason : FinishReason}
    (finishReason : machine.finishReason = some reason) :
    Succeeds (Collector.consumer.collect collector [.done reason]) := by
  have noneOpen : ∀ index, lookup collector.openBlocks index = none := by
    intro index
    cases found : lookup collector.openBlocks index with
    | none => rfl
    | some block =>
      rcases follows.linked.covered index block found with ⟨slot, item, atSlot, _⟩
      cases (openItems_eq_none closed slot).symm.trans atSlot
  rcases follows.finished reason finishReason with ⟨nonZero, agrees⟩
  exact (follows.sound.succeeds_collect_done_iff follows.notDone noneOpen reason).mpr
    ⟨follows.next ▸ nonZero, by simpa only [follows.tools.wireIndexes]⟩

theorem finish_agrees : EndAgrees (producer library) Collector.consumer
    Related (Fits library) := by
  intro machine collector events related finished
  simp only [producer, finish, bind_eq_ok, reject_eq_ok,
    okOr_eq_ok, exists_const, Except.ok.injEq, Bool.not_eq_true] at finished
  rcases finished with ⟨_, _, closed, reason, finishReason, rfl⟩
  rcases related.follows with ⟨announced, follows⟩
  have collected := follows.collect_done closed finishReason
  refine iff_of_true collected ?_
  cases reported : machine.usageDetails <;> simp [Fits, snapshots, reported, StableFrom,
    StableUsage]

/-- The collector takes everything that a successful run of the machine emits,
and finishes, if and only if no usage snapshot of the stream reports a field that
the first one left out. -/
theorem collect_succeeds_iff_stableUsage (library : WireLibrary Schema)
    (context : StreamContext) (format : ResponseFormat Schema) (limits : ResponseLimits)
    (compat : ResponseCompat) (inputs : List SseEvent) (outputs : List AssistantEvent)
    (produced : (producer library).runToEnd
      (.new context format limits compat) inputs = .ok outputs) :
    Succeeds (Collector.consumer.collect .fresh outputs) ↔
      StableUsage (snapshots library compat.usage inputs) := by
  have related : Related (new context format limits compat) .fresh :=
    ⟨⟨_, Follows.new context format limits compat⟩, rfl, fun _ => rfl, rfl, fun _ => rfl⟩
  exact succeeds_collect_iff_fits accept_agrees finish_agrees related produced

/-! ## Recorded streams -/

structure Recorded where
  data : String
  chunk : ChatCompletionChunkWire

/-- `serde_json` on the recorded chunks. -/
def recordedLibrary (records : List Recorded) : WireLibrary Unit where
  fromStr _ := .error ⟨.syntactic, 1, 1⟩
  render _ := ""
  validateInstance _ _ _ := .ok ()
  chunk data := okOr ((records.find? fun record => record.data = data).map Recorded.chunk)
    ⟨.syntactic, 1, 1⟩
  toString _ := .error ⟨.syntactic, 1, 1⟩

def recordedInputs (records : List Recorded) : List SseEvent :=
  records.map (fun record => ⟨record.data, none⟩) ++ [⟨"[DONE]", none⟩]

def recordedContext : StreamContext where
  localRequestId := sampleRequestId
  providerRequestId := none

def textChoice (content : String) : ChoiceWire :=
  ⟨0, some ⟨none, some content, none, none, none, []⟩, none, []⟩

def stopChoice : ChoiceWire := ⟨0, none, some "stop", []⟩

def recordedText : Recorded where
  data := "\x7b\"choices\":[\x7b\"index\":0,\"delta\":\x7b\"content\":\"Hi\"\x7d\x7d]," ++
    "\"usage\":\x7b\"prompt_tokens\":5\x7d\x7d"
  chunk := ⟨none, none, none, [textChoice "Hi"],
    some ⟨some 5, none, none, none, none, []⟩, none, []⟩

def recordedStop : Recorded where
  data := "\x7b\"choices\":[\x7b\"index\":0,\"finish_reason\":\"stop\"\x7d]," ++
    "\"usage\":\x7b\"prompt_tokens\":5,\"completion_tokens\":3,\"total_tokens\":8\x7d\x7d"
  chunk := ⟨none, none, none, [stopChoice], some ⟨some 5, some 3, some 8, none, none, []⟩, none, []⟩

def promptOnly : UsageDetails := ⟨.known 5, .unknown, .unknown, .unknown, .unknown, .unknown⟩
def allCore : UsageDetails := ⟨.known 5, .known 3, .known 8, .unknown, .unknown, .unknown⟩

def growingUsageEmitted : List AssistantEvent :=
  [.start sampleRequestId none none, .textStart 0, .textDelta 0 "Hi",
    .detailedUsage promptOnly, .textEnd 0, .usage ⟨5, 3, 8, by decide⟩,
    .detailedUsage allCore, .done .stop]

/-- Usage that becomes known in two steps is emitted twice and then refused. -/
theorem growingUsage_not_collected :
    (producer (recordedLibrary [recordedText, recordedStop])).runToEnd
        (.new recordedContext .text .official .openAiChatDefault)
        (recordedInputs [recordedText, recordedStop]) = .ok growingUsageEmitted ∧
      Collector.consumer.collect .fresh growingUsageEmitted =
        .error (Collector.protocol "conflicting DetailedUsage events") := by
  constructor
  · rfl
  · rfl

def recordedUsage : Recorded where
  data := "\x7b\"usage\":\x7b\"prompt_tokens\":5\x7d\x7d"
  chunk := ⟨none, none, none, [], some ⟨some 5, none, none, none, none, []⟩, none, []⟩

def repeatedUsageEmitted : List AssistantEvent :=
  [.start sampleRequestId none none, .textStart 0, .textEnd 0,
    .usage ⟨5, 3, 8, by decide⟩, .detailedUsage allCore, .done .stop]

theorem repeatedUsage_collected :
    (producer (recordedLibrary [recordedStop, recordedUsage])).runToEnd
        (.new recordedContext .text .official .openAiChatDefault)
        (recordedInputs [recordedStop, recordedUsage]) = .ok repeatedUsageEmitted ∧
      Succeeds (Collector.consumer.collect .fresh repeatedUsageEmitted) := by
  have produced :
      (producer (recordedLibrary [recordedStop, recordedUsage])).runToEnd
        (.new recordedContext .text .official .openAiChatDefault)
        (recordedInputs [recordedStop, recordedUsage]) = .ok repeatedUsageEmitted := rfl
  refine ⟨produced, (collect_succeeds_iff_stableUsage _ _ _ _ _ _ _ produced).mpr ?_⟩
  have reported : snapshots (recordedLibrary [recordedStop, recordedUsage]) .openAi
      (recordedInputs [recordedStop, recordedUsage]) = [allCore, promptOnly] := rfl
  show StableUsage (snapshots (recordedLibrary [recordedStop, recordedUsage]) .openAi
      (recordedInputs [recordedStop, recordedUsage]))
  rw [reported]
  intro details later
  cases List.mem_singleton.mp later
  constructor <;> decide

end Philo.OpenAiChat
