import Philo.Execution.Requests

/-! How long one attempt can take. Every await of `execute` is under the timer of some
stage, except that for the body of an error response. -/

namespace Philo.AttemptExecutor

open Result Async

variable (library : UrlLibrary) (surroundings : AttemptSurroundings)
  (runtime : ProviderRuntime) (call : PreparedCall) (context : AttemptContext)

/-- The time that the stages leave an attempt: those of its credential and of its
response head, and one more. -/
def bound (timeouts : TimeoutPolicy) : Duration :=
  timeouts.credential + timeouts.responseHeader + timeouts.longest

def requestFor (endpoint : ResolvedEndpoint) (resolved : ResolvedHeaders) : HttpRequest :=
  ⟨endpoint, resolved.headers, call.body, context.lifecycle, context.localRequestId,
    runtime.redirectPolicy⟩

/-- The credential callbacks and the transport let an attempt that starts at `now` come
to the body of an error response, which it begins to read `elapsed` later. -/
def MeetsErrorBody (now elapsed : Nat) (response : HttpResponse) : Prop :=
  context.attemptNumber ≠ 0 ∧
  ∃ endpoint identity resolved headersElapsed answerElapsed,
    runtime.resolveTargetEndpoint library call.target = .ok endpoint ∧
    context.idempotency.operation = .ok identity ∧
    runtime.resolveHeadersForAttempt surroundings.toHeaderSurroundings call.protocolHeaders []
      identity.toList call.requestHeaders
      ⟨endpoint, call.facts, context.lifecycle, call.target.domainModel,
        context.localRequestId, context.attemptNumber⟩ now = some (headersElapsed, .ok resolved) ∧
    headersElapsed < context.timeouts.credential ∧
    surroundings.transport (requestFor runtime call context endpoint resolved)
      (now + headersElapsed) = some (answerElapsed, .ok response) ∧
    answerElapsed < context.timeouts.responseHeader ∧
    isSuccessStatus response.status = false ∧
    validateResponseHeaderLimits response.headers = .ok () ∧
    elapsed = headersElapsed + answerElapsed

/-- The body of every error response that the transport gives ends, fails or passes
`maxBytes` within `limit`. -/
def ErrorBodiesEnd (transport : HttpRequest → Async LlmError HttpResponse)
    (maxBytes limit : Nat) : Prop :=
  ∀ request now elapsed response, transport request now = some (elapsed, .ok response) →
    isSuccessStatus response.status = false →
    ∃ total : Nat, response.body.Decides 0 maxBytes total ∧ total ≤ limit

/-- From the response head on, only the body of an error response takes time. -/
theorem exists_receiveResponse_iff {response : HttpResponse} {now limit : Nat} :
    (∃ fuel, (receiveResponse call context fuel response).ResolvesWithin now limit) ↔
      (validateResponseHeaderLimits response.headers = .ok () →
        isSuccessStatus response.status = false →
        ∃ total, response.body.Decides 0 call.maxErrorBodyBytes total ∧ total ≤ limit) := by
  cases limits : validateResponseHeaderLimits response.headers with
  | error error =>
    refine iff_of_true ⟨0, ?_⟩ nofun
    unfold receiveResponse
    rw [limits]
    exact resolvesWithin_ofResult _ now limit
  | ok _ =>
    simp only [receiveResponse, limits, ofResult_ok_bind, forall_const]
    by_cases succeeded : isSuccessStatus response.status = true
    · refine iff_of_true ⟨0, ?_⟩ (by simp [succeeded])
      simp only [succeeded, if_true]
      exact resolvesWithin_ofResult_bind fun _ _ => resolvesWithin_ofResult _ _ _
    · simp only [succeeded, Bool.false_eq_true, if_false, resolvesWithin_bind_pure,
        forall_const]
      constructor
      · rintro ⟨fuel, total, result, read, within⟩
        exact ⟨total, ByteStream.exists_readBodyLimited_iff.mp ⟨fuel, result, read⟩, within⟩
      · rintro ⟨total, decides, within⟩
        rcases ByteStream.exists_readBodyLimited_iff.mpr decides with ⟨fuel, result, read⟩
        exact ⟨fuel, total, result, read, within⟩

section Undisturbed

variable {library surroundings runtime call context}
  (noDeadline : context.lifecycle.deadline = none)
  (notCancelled : surroundings.cancelledAt = none)

include noDeadline notCancelled

theorem prepareRequest_eq_ok_iff {now elapsed : Nat} {request : HttpRequest} :
    prepareRequest library surroundings runtime call context now = some (elapsed, .ok request) ↔
      context.attemptNumber ≠ 0 ∧ ∃ endpoint identity resolved,
        runtime.resolveTargetEndpoint library call.target = .ok endpoint ∧
        context.idempotency.operation = .ok identity ∧
        runtime.resolveHeadersForAttempt surroundings.toHeaderSurroundings
          call.protocolHeaders [] identity.toList call.requestHeaders
          ⟨endpoint, call.facts, context.lifecycle, call.target.domainModel,
            context.localRequestId, context.attemptNumber⟩ now = some (elapsed, .ok resolved) ∧
        elapsed < context.timeouts.credential ∧
        request = requestFor runtime call context endpoint resolved := by
  simp only [prepareRequest, notCancelled, Async.bind_eq_ok, Async.ofResult_apply,
    Async.pure_apply, Option.some.injEq, Prod.mk.injEq, Except.ok.injEq, reject_eq_ok,
    lifecyclePreflight_undisturbed noDeadline, awaitWithStage_undisturbed_eq_ok noDeadline]
  constructor
  · rintro ⟨_, _, _, ⟨rfl, numbered⟩, ⟨_, _, _, ⟨rfl, _⟩, ⟨_, endpoint, _, ⟨rfl, resolves⟩,
      ⟨_, identity, _, ⟨rfl, identified⟩, ⟨headersElapsed, resolved, _, ⟨headers, early⟩,
        ⟨rfl, rfl⟩, rfl⟩, rfl⟩, rfl⟩, rfl⟩, rfl⟩
    simp only [Nat.zero_add, Nat.add_zero] at headers ⊢
    exact ⟨numbered, endpoint, identity, resolved, resolves, identified, headers, early, rfl⟩
  · rintro ⟨numbered, endpoint, identity, resolved, resolves, identified, headers, early, rfl⟩
    exact ⟨0, (), elapsed, ⟨rfl, numbered⟩, ⟨0, (), elapsed, ⟨rfl, trivial⟩,
      ⟨0, endpoint, elapsed, ⟨rfl, resolves⟩, ⟨0, identity, elapsed, ⟨rfl, identified⟩,
        ⟨elapsed, resolved, 0, ⟨headers, early⟩, ⟨rfl, rfl⟩, rfl⟩, by simp⟩, by simp⟩, by simp⟩,
      by simp⟩

theorem prepareRequest_resolvesWithin (now : Instant) :
    (prepareRequest library surroundings runtime call context).ResolvesWithin now
      context.timeouts.credential := by
  unfold prepareRequest
  rw [notCancelled]
  refine resolvesWithin_ofResult_bind fun _ _ => ?_
  rw [resolvesWithin_of_ok (lifecyclePreflight_undisturbed noDeadline now) (Nat.zero_le _)]
  refine resolvesWithin_ofResult_bind fun endpoint _ => ?_
  refine resolvesWithin_ofResult_bind fun identity _ => ?_
  exact (awaitWithStage_resolvesWithin noDeadline _ now).bind fun elapsed resolved _ =>
    resolvesWithin_ofResult _ _ 0

/-- An attempt comes to an error body by handing over its request and getting an answer
to it before the timers of the two stages. -/
theorem meetsErrorBody_iff {now elapsed : Nat} {response : HttpResponse} :
    MeetsErrorBody library surroundings runtime call context now elapsed response ↔
      ∃ headersElapsed request answerElapsed,
        prepareRequest library surroundings runtime call context now =
          some (headersElapsed, .ok request) ∧
        sendRequest surroundings context request (now + headersElapsed) =
          some (answerElapsed, .ok response) ∧
        isSuccessStatus response.status = false ∧
        validateResponseHeaderLimits response.headers = .ok () ∧
        elapsed = headersElapsed + answerElapsed := by
  simp only [prepareRequest_eq_ok_iff noDeadline notCancelled, sendRequest, notCancelled,
    awaitWithStage_undisturbed_eq_ok noDeadline]
  constructor
  · rintro ⟨numbered, endpoint, identity, resolved, headersElapsed, answerElapsed, resolves,
      identified, headers, early, answers, answersEarly, failed, limits, rfl⟩
    exact ⟨headersElapsed, _, answerElapsed, ⟨numbered, endpoint, identity, resolved, resolves,
      identified, headers, early, rfl⟩, ⟨answers, answersEarly⟩, failed, limits, rfl⟩
  · rintro ⟨headersElapsed, _, answerElapsed, ⟨numbered, endpoint, identity, resolved, resolves,
      identified, headers, early, rfl⟩, ⟨answers, answersEarly⟩, failed, limits, rfl⟩
    exact ⟨numbered, endpoint, identity, resolved, headersElapsed, answerElapsed, resolves,
      identified, headers, early, answers, answersEarly, failed, limits, rfl⟩

/-- Without a deadline and without cancellation, an attempt ends within its stages exactly if
the body of each error response that it comes to decides in the time that is left. -/
theorem execute_bounded_iff (now : Instant) :
    (∃ fuel, (execute library surroundings runtime call context fuel).ResolvesWithin now
      (bound context.timeouts)) ↔
    ∀ elapsed response,
      MeetsErrorBody library surroundings runtime call context now elapsed response →
      ∃ total, response.body.Decides 0 call.maxErrorBodyBytes total ∧
        elapsed + total ≤ bound context.timeouts := by
  simp only [meetsErrorBody_iff noDeadline notCancelled, execute]
  have prepares : (prepareRequest library surroundings runtime call context).ResolvesWithin now _ :=
    prepareRequest_resolvesWithin noDeadline notCancelled now
  rcases prepares with ⟨headersElapsed, error | request, prepared, inTime⟩
  · refine iff_of_true ⟨0, headersElapsed, .error error, by simp [bind_apply, prepared], ?_⟩ ?_
    · unfold bound
      omega
    · rintro elapsed response ⟨_, _, _, handed, _⟩
      rw [prepared] at handed
      cases handed
  have fits : headersElapsed ≤ bound context.timeouts := by
    unfold bound
    omega
  refine (exists_congr fun fuel => resolvesWithin_of_ok prepared fits).trans ?_
  have sends : (sendRequest surroundings context request).ResolvesWithin (now + headersElapsed)
      context.timeouts.responseHeader := by
    unfold sendRequest
    rw [notCancelled]
    exact awaitWithStage_resolvesWithin noDeadline _ _
  rcases sends with ⟨answerElapsed, error | response, answered, answerInTime⟩
  · refine iff_of_true ⟨0, answerElapsed, .error error, by simp [bind_apply, answered], ?_⟩ ?_
    · unfold bound
      omega
    · rintro elapsed response ⟨_, _, _, handed, sent, _⟩
      rw [prepared] at handed
      cases handed
      rw [answered] at sent
      cases sent
  have answerFits : answerElapsed ≤ bound context.timeouts - headersElapsed := by
    unfold bound
    omega
  refine (exists_congr fun fuel => resolvesWithin_of_ok answered answerFits).trans ?_
  rw [exists_receiveResponse_iff]
  have bothFit : headersElapsed + answerElapsed ≤ bound context.timeouts := by
    unfold bound
    omega
  have remaining : ∀ total, total ≤ bound context.timeouts - headersElapsed - answerElapsed ↔
      headersElapsed + answerElapsed + total ≤ bound context.timeouts := by
    intro total
    rw [Nat.sub_sub, Nat.le_sub_iff_add_le' bothFit]
  constructor
  · rintro decides elapsed other ⟨_, _, _, handed, sent, failed, limits, rfl⟩
    rw [prepared] at handed
    cases handed
    rw [answered] at sent
    cases sent
    rcases decides limits failed with ⟨total, decided, within⟩
    exact ⟨total, decided, (remaining total).mp within⟩
  · intro decides limits failed
    rcases decides _ response ⟨_, _, _, prepared, answered, failed, limits, rfl⟩ with
      ⟨total, decided, within⟩
    exact ⟨total, decided, (remaining total).mpr within⟩

/-- Bounded attempt: without a deadline and without cancellation, an attempt ends within
its stages if the body of every error response decides within the longest of them. -/
theorem execute_bounded (ends : ErrorBodiesEnd surroundings.transport call.maxErrorBodyBytes
      context.timeouts.longest) (now : Instant) :
    ∃ fuel, (execute library surroundings runtime call context fuel).ResolvesWithin now
      (bound context.timeouts) := by
  apply (execute_bounded_iff noDeadline notCancelled now).mpr
  rintro elapsed response ⟨_, _, _, _, _, _, _, _, _, early, answers, answersEarly, failed, _, rfl⟩
  rcases ends _ _ _ _ answers failed with ⟨total, decides, within⟩
  refine ⟨total, decides, ?_⟩
  unfold bound
  omega

end Undisturbed

def slowError : HttpResponse where
  status := 500
  headers := []
  body
    | 0 => some (0, .chunk [98, 117, 115])
    | 1 => some (50000000000, .chunk [121])
    | 2 => some (1, .ended)
    | _ => none

/-- The body takes longer than the response head may, but not longer than the longest
stage. -/
theorem execute_bounded_slowError :
    MeetsErrorBody sampleUrlLibrary (quietSurroundings fun _ => .ofResult (.ok slowError))
      openAiRuntime openAiCall openAiContext 0 0 slowError ∧
    ∃ fuel, (execute sampleUrlLibrary (quietSurroundings fun _ => .ofResult (.ok slowError))
      openAiRuntime openAiCall openAiContext fuel).ResolvesWithin 0
        (bound openAiContext.timeouts) := by
  constructor
  · rcases prepareRequest_openAi fun _ => .ofResult (.ok slowError) with ⟨request, prepared, _⟩
    have sent : sendRequest (quietSurroundings fun _ => .ofResult (.ok slowError)) openAiContext
        request 0 = some (0, .ok slowError) :=
      (awaitWithStage_undisturbed_eq_ok rfl).mpr ⟨rfl, by decide⟩
    exact (meetsErrorBody_iff rfl rfl).mpr ⟨0, request, 0, prepared, sent, rfl, rfl, rfl⟩
  · apply execute_bounded rfl rfl
    rintro request now elapsed response ⟨⟩ failed
    have decides : slowError.body.Decides 0 64 _ := .within rfl (by decide)
      (.within rfl (by decide) (.ended rfl))
    exact ⟨_, decides, by decide⟩

def silentError : HttpResponse := ⟨500, [], fun _ => none⟩

/-- An attempt that gets such a response never ends. -/
theorem execute_silentError :
    openAiContext.lifecycle.deadline = none ∧
    ∀ fuel, execute sampleUrlLibrary
      (quietSurroundings fun _ => .ofResult (.ok silentError)) openAiRuntime openAiCall
      openAiContext fuel 0 = none := by
  refine ⟨rfl, fun fuel => ?_⟩
  rcases prepareRequest_openAi fun _ => .ofResult (.ok silentError) with ⟨request, prepared, _⟩
  have sent : sendRequest (quietSurroundings fun _ => .ofResult (.ok silentError)) openAiContext
      request 0 = some (0, .ok silentError) :=
    (awaitWithStage_undisturbed_eq_ok rfl).mpr ⟨rfl, by decide⟩
  have received : receiveResponse openAiCall openAiContext fuel silentError 0 = none := by
    cases fuel <;> rfl
  simp [execute, bind_apply, prepared, sent, received]

end Philo.AttemptExecutor
