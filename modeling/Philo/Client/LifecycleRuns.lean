import Philo.Client.LifecycleTrace
import Philo.Client.RetryRuns

/-! The lifecycle trace over whole runs of a call. -/

namespace Philo

/-! ## Moves -/

section Moves

variable {policies : CallPolicies} {call : Call}

theorem Call.observed_observe (call : Call) (kinds : List LifecycleEventKind) :
    (call.observe kinds).log.observed = call.log.observed ++ kinds := by
  unfold Call.observe CallLog.observed
  rw [List.filterMap_append, List.filterMap_map]
  exact congrArg (_ ++ ·) (List.filterMap_some_fun ▸ rfl)

theorem Call.yielded_observe (call : Call) (kinds : List LifecycleEventKind) :
    (call.observe kinds).log.yielded = call.log.yielded := by
  unfold Call.observe CallLog.yielded
  rw [List.filterMap_append, List.filterMap_map]
  simp

theorem Call.observed_yield (call : Call) (item : Yield) :
    (call.yield item).log.observed = call.log.observed := by
  refine List.filterMap_append.trans ?_
  exact List.append_nil _

theorem Call.yielded_yield (call : Call) (item : Yield) :
    (call.yield item).log.yielded = call.log.yielded ++ [item] := List.filterMap_append

theorem Traced.observe (traced : Traced call) (live : call.phase.isLive = true)
    {kinds : List LifecycleEventKind} (inner : ∀ kind ∈ kinds, kind.isInner = true) :
    Traced (call.observe kinds) := by
  rcases traced.status.of_live live with ⟨unended, begun, unfinished⟩
  refine ⟨?_, traced.busy⟩
  rw [Call.observed_observe, Call.yielded_observe]
  exact .live unended live (begun.append inner) unfinished

theorem Traced.failStream (traced : Traced call) {stream : StreamState}
    (streaming : call.phase = .streaming stream) (live : stream.terminal = false)
    (error : LlmError) : Traced (call.failStream stream error) := by
  have isLive : call.phase.isLive = true := by simp [streaming, Phase.isLive, live]
  rcases traced.status.of_live isLive with ⟨_, begun, unfinished⟩
  refine ⟨?_, by rintro ⟨⟩⟩
  unfold Call.failStream
  rw [Call.observed_yield, Call.observed_observe, Call.yielded_yield, Call.yielded_observe]
  exact .ended rfl rfl (begun.finish (LifecycleEventKind.isTerminal_ofTerminalError error _))
    (unfinished.finish rfl)

theorem Traced.fail (traced : Traced call) (live : call.phase.isLive = true)
    (error : LlmError) : Traced (call.fail error) := by
  unfold Call.fail
  split
  · rcases traced.status.of_live live with ⟨_, begun, unfinished⟩
    refine ⟨?_, by rintro ⟨⟩⟩
    rw [Call.observed_observe, Call.yielded_observe]
    exact .gone rfl (begun.finish (LifecycleEventKind.isTerminal_ofTerminalError error false))
      unfinished.yieldsOnce
  · next stream streaming =>
      refine traced.failStream streaming ?_ error
      simpa [streaming, Phase.isLive] using live
  · exact traced
  · exact traced
  · exact traced

theorem isInner_scheduleKinds (schedule : Call.Schedule) (attempt : UInt32) :
    ∀ kind ∈ schedule.kinds attempt, kind.isInner = true := by
  simp [Call.Schedule.kinds, LifecycleEventKind.isInner, LifecycleEventKind.isTerminal]

theorem Traced.openAttempt (traced : Traced call) (live : call.phase.isLive = true)
    (number : UInt32) : Traced (call.openAttempt number) := by
  have moved : Traced { call with attempt := number, point := .opening } :=
    ⟨traced.status, fun _ => live⟩
  exact moved.observe live (by simp [LifecycleEventKind.isInner, LifecycleEventKind.isTerminal])

/-- `Done` ends the trace and the stream; any other event leaves both open. -/
theorem Traced.deliver (traced : Traced call) {stream : StreamState}
    (streaming : call.phase = .streaming stream) (live : stream.terminal = false)
    (event : AssistantEvent) : Traced (call.deliver stream event) := by
  have isLive : call.phase.isLive = true := by simp [streaming, Phase.isLive, live]
  have counted : (Phase.streaming (stream.count event)).isLive = true := by
    simp [Phase.isLive, StreamState.count, live]
  have received : Traced ({ call with
      eventSeen := true
      delivered := true
      point := .idle
      phase := .streaming (stream.count event) }.observe
        (Call.firstEventKinds stream event)) := by
    rcases traced.status.of_live isLive with ⟨unended, begun, unfinished⟩
    have moved : Traced { call with
        eventSeen := true
        delivered := true
        point := .idle
        phase := .streaming (stream.count event) } :=
      ⟨.live unended counted begun unfinished, by rintro ⟨⟩⟩
    exact moved.observe counted ((notes_firstEventKinds stream event).isInner)
  rcases received.status.of_live counted with ⟨unended, begun, unfinished⟩
  unfold Call.deliver
  split
  · next finishReason =>
      refine ⟨?_, by rintro ⟨⟩⟩
      rw [Call.observed_yield, Call.observed_observe, Call.yielded_yield, Call.yielded_observe]
      have inner : ∀ kind ∈ [LifecycleEventKind.finishSeen finishReason, .doneSeen],
          kind.isInner = true := by
        simp [LifecycleEventKind.isInner, LifecycleEventKind.isTerminal]
      have finished := (begun.append inner).finish (show (LifecycleEventKind.requestCompleted
        (stream.count (.done finishReason)).eventCount
        (stream.count (.done finishReason)).usageKnown).isTerminal = true from rfl)
      rw [List.append_assoc] at finished
      exact .ended rfl rfl finished (unfinished.finish rfl)
  · next notDone =>
      refine ⟨?_, by rintro ⟨⟩⟩
      rw [Call.observed_yield, Call.yielded_yield]
      refine .live unended counted begun (unfinished.append rfl ?_)
      cases event <;> first | rfl | exact absurd rfl (notDone _)

theorem Traced.begin (traced : Traced call) (unpolled : call.phase = .unpolled)
    (lifecycle : RequestLifecycle) (idempotency : ResolvedIdempotency) :
    Traced ({ call with phase := .starting, lifecycle, idempotency }.observe
      [.requestStarted]) := by
  have status := traced.status
  rw [unpolled] at status
  rcases status.of_unpolled with ⟨unended, noKinds, noItems⟩
  refine ⟨?_, fun _ => rfl⟩
  rw [Call.observed_observe, Call.yielded_observe]
  refine .live unended rfl ⟨[], ?_, by simp⟩ ?_
  · exact congrArg (· ++ _) noKinds
  · exact noItems ▸ by simp [OpenYields]

theorem Traced.yieldEnded (traced : Traced call) {stream : StreamState}
    (streaming : call.phase = .streaming stream) (isOver : stream.terminal = true) :
    Traced (call.yield .ended) := by
  have status := traced.status
  rw [streaming] at status
  rcases status.of_ended isOver with ⟨ended, finished, yields⟩
  refine ⟨?_, traced.busy⟩
  rw [Call.observed_yield, Call.yielded_yield]
  exact streaming ▸ .ended ended isOver finished yields.append_ended

theorem Traced.discard (traced : Traced call) (unpolled : call.phase = .unpolled) :
    Traced { call with phase := .discarded } := by
  have status := traced.status
  rw [unpolled] at status
  rcases status.of_unpolled with ⟨unended, noKinds, noItems⟩
  constructor
  · exact .discarded unended noKinds noItems
  · intro isBusy
    have live := traced.busy isBusy
    rw [unpolled] at live
    cases live

theorem Traced.dropStream (traced : Traced call) {stream : StreamState}
    (streaming : call.phase = .streaming stream) : Traced (call.dropStream stream) := by
  have status := traced.status
  rw [streaming] at status
  simp only [Call.dropStream]
  cases isOver : stream.terminal with
  | false =>
    have live : (Phase.streaming stream).isLive = true := by simp [Phase.isLive, isOver]
    rcases status.of_live live with ⟨unended, begun, unfinished⟩
    rw [if_pos ⟨rfl, unended⟩]
    refine ⟨?_, by rintro ⟨⟩⟩
    rw [Call.observed_observe, Call.yielded_observe]
    exact .gone rfl (begun.finish rfl) unfinished.yieldsOnce
  | true =>
    rw [if_neg (by simp)]
    refine ⟨?_, by rintro ⟨⟩⟩
    rcases status.of_ended isOver with ⟨ended, finished, yields⟩
    exact .gone ended finished yields.yieldsOnce

theorem Traced.move (traced : Traced call) {next : Call} (move : call.Move policies next) :
    Traced next := by
  cases move with
  | aside => exact ⟨traced.status, traced.busy⟩
  | begin unpolled lifecycle => exact traced.begin unpolled lifecycle call.idempotency
  | openFirst unpolled lifecycle _ idempotency notes =>
    have begun := traced.begin unpolled lifecycle idempotency
    exact (begun.observe rfl notes.isInner).openAttempt rfl 1
  | discard unpolled => exact traced.discard unpolled
  | report live notes => exact traced.observe live notes.isInner
  | @schedule schedule _ live =>
    have observed := traced.observe live (isInner_scheduleKinds schedule call.attempt)
    exact ⟨observed.status, fun _ => live⟩
  | @resume number delay _ waiting =>
    have waited : Traced { call with
        totalWaited := Duration.saturatingAdd call.totalWaited delay } :=
      ⟨traced.status, traced.busy⟩
    exact waited.openAttempt (traced.busy (by rw [waiting]; rfl)) number
  | handOut opening =>
    rcases traced.status.of_live (traced.busy (by rw [opening]; rfl)) with
      ⟨unended, begun, unfinished⟩
    exact ⟨.live unended rfl begun unfinished, by rintro ⟨⟩⟩
  | read live => exact ⟨traced.status, fun _ => live⟩
  | deliver _ streaming live event => exact traced.deliver streaming live event
  | fail live error => exact traced.fail live error
  | yieldEnded streaming isOver => exact traced.yieldEnded streaming isOver
  | dropStream streaming => exact traced.dropStream streaming

theorem Traced.step {setup : CallSetup} (traced : Traced call) {action : CallAction}
    {next : Call} (kept : ¬ AbandonsStart call action)
    (stepped : call.step setup action = some next) : Traced next := by
  rcases moves_of_step traced.busy stepped with moves | ⟨abandons, _⟩
  · clear stepped
    induction moves with
    | refl => exact traced
    | tail _ move induction => exact induction.move move
  · exact absurd abandons kept

theorem traced_initial (now : Instant) : Traced (Call.initial now) :=
  ⟨.unpolled rfl rfl rfl, by rintro ⟨⟩⟩

/-- A future that is dropped while it starts takes the end of its trace with it. -/
theorem Traced.not_lifecycleTrace {setup : CallSetup} (traced : Traced call)
    {action : CallAction} {next : Call} (abandons : AbandonsStart call action)
    (stepped : call.step setup action = some next) : ¬ LifecycleTrace next := by
  rcases abandons with ⟨starting, rfl⟩
  simp only [Call.step, starting, Option.some.injEq] at stepped
  subst stepped
  intro trace
  have begun := (traced.status.of_live (by rw [starting]; rfl)).2.1
  rcases trace.exists_terminal rfl with ⟨kind, member, terminal⟩
  rw [begun.not_isTerminal kind member] at terminal
  cases terminal

end Moves

/-- The trace of a run is right at every moment if and only if the future of
`stream_with_control` is not dropped between its first poll and its end. -/
theorem Call.lifecycleTrace_iff (setup : CallSetup) (now : Instant)
    (actions : List CallAction) (final : Call)
    (ran : (Call.system setup).run (Call.initial now) actions = some final) :
    (∀ call, (Call.system setup).Visits (Call.initial now) actions call →
        LifecycleTrace call) ↔
      ∀ call action, (Call.system setup).Takes (Call.initial now) actions call action →
        ¬ AbandonsStart call action :=
  System.visits_iff_takes (fun call action => ¬ AbandonsStart call action) Traced
    (fun _ _ _ traced kept stepped => traced.step kept stepped)
    (fun _ traced => traced.lifecycleTrace)
    (fun _ _ _ traced abandons stepped => traced.not_lifecycleTrace (not_not.mp abandons) stepped)
    (traced_initial now) ran

/-- A run that never drops the future is right in all its states. -/
theorem rateLimitedRun_lifecycleTrace :
    ((Call.system sampleSetup).run (Call.initial 0) rateLimitedRun).isSome = true ∧
      ∀ call, (Call.system sampleSetup).Visits (Call.initial 0) rateLimitedRun call →
        LifecycleTrace call := by
  have ran : ((Call.system sampleSetup).run (Call.initial 0) rateLimitedRun).isSome = true := by
    decide
  rcases Option.isSome_iff_exists.mp ran with ⟨final, isFinal⟩
  refine ⟨ran, (Call.lifecycleTrace_iff sampleSetup 0 rateLimitedRun final isFinal).mpr ?_⟩
  rintro call action ⟨first, later, split, _⟩ ⟨_, rfl⟩
  have taken : CallAction.dropFuture ∈ rateLimitedRun := by
    rw [split]
    simp
  simp [rateLimitedRun] at taken

def abandonedRun : List CallAction := [.begin (.ready ⟨none, none, .unknown, none⟩), .dropFuture]

def abandonedKinds : List LifecycleEventKind :=
  [.requestStarted, .validationCompleted, .idempotencyPrepared .unknown false none,
    .attemptStarted 1]

theorem abandonedRun_unended : ∃ call,
    (Call.system sampleSetup).run (Call.initial 0) abandonedRun = some call ∧
      call.phase = .gone ∧ call.log.observed = abandonedKinds ∧ ¬ LifecycleTrace call := by
  refine ⟨_, rfl, rfl, rfl, ?_⟩
  intro trace
  rcases trace.exists_terminal rfl with ⟨kind, member, terminal⟩
  have unended : ∀ kind ∈ abandonedKinds, kind.isTerminal = false := by decide
  rw [unended kind member] at terminal
  cases terminal

end Philo
