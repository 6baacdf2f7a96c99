import Philo.Execution.Executor
import Philo.Provider.Auth.DynamicConfinement
import Philo.Provider.HeaderOwnership

/-! Which requests reach the transport: credentials stay with their destinations, and
every attempt of a replayable call carries the same key. -/

namespace Philo

open Result HeaderPolicy

namespace ProviderRuntime

variable {library : UrlLibrary} {profile : ProviderProfile} {runtime : ProviderRuntime}

theorem build_eq_ok (built : build library profile = .ok runtime) :
    runtime.auth = profile.auth ∧ runtime.providerHeaders = profile.providerHeaders ∧
      runtime.idempotency = profile.idempotency ∧
      runtime.pipeline = ⟨profile.auth.protectedHeaders, registeredHeaders profile⟩ := by
  simp only [build, bind_eq_ok, Except.ok.injEq] at built
  rcases built with ⟨_, _, _, _, _, _, _, _, _, _, rfl⟩
  exact ⟨rfl, rfl, rfl, rfl⟩

theorem finishHeaders_eq_ok {protocol model requestIdentity dynamic auth : List HeaderOperation}
    {request : List (HeaderName × HeaderValue)} {resolved : ResolvedHeaders} :
    runtime.finishHeaders protocol model requestIdentity dynamic auth request = .ok resolved ↔
      ∃ identity, runtime.clientIdentity.operation = .ok identity ∧
        runtime.pipeline.resolveLayers (runtime.attemptLayers protocol model requestIdentity
          dynamic (requestOperations request) auth identity) = .ok resolved ∧
        (resolved.headers .contentType).map HeaderValue.text = some "application/json" ∧
        runtime.auth.validateFinal resolved.headers = .ok () := by
  simp only [finishHeaders, bind_eq_ok, reject_eq_ok, Except.ok.injEq, not_not, exists_const]
  constructor
  · rintro ⟨identity, isIdentity, _, layered, isJson, _, final, rfl⟩
    exact ⟨identity, isIdentity, layered, isJson, final⟩
  · rintro ⟨identity, isIdentity, layered, isJson, final⟩
    exact ⟨identity, isIdentity, resolved, layered, isJson, (), final, rfl⟩

/-- The headers of an attempt come from its authentication provider, asked for that
attempt's endpoint, and from layers that the pipeline accepted. -/
theorem resolveHeadersForAttempt_eq_ok {surroundings : HeaderSurroundings}
    {protocol model requestIdentity : List HeaderOperation}
    {request : List (HeaderName × HeaderValue)} {attempt : HeaderAttemptContext}
    {now elapsed : Nat} {resolved : ResolvedHeaders}
    (succeeded : runtime.resolveHeadersForAttempt surroundings protocol model requestIdentity
      request attempt now = some (elapsed, .ok resolved)) :
    ∃ authElapsed auth dynamic identity,
      runtime.auth.resolve (.forAttempt attempt.endpoint runtime.providerId runtime.productId
        attempt.lifecycle) surroundings.cacheAnswer now = some (authElapsed, .ok auth) ∧
      runtime.pipeline.resolveLayers (runtime.attemptLayers protocol model requestIdentity
        dynamic (requestOperations request) auth identity) = .ok resolved := by
  simp only [resolveHeadersForAttempt, Async.bind_eq_ok, Async.ofResult_apply,
    Option.some.injEq, Prod.mk.injEq, finishHeaders_eq_ok] at succeeded
  rcases succeeded with ⟨authElapsed, auth, _, authenticated, ⟨_, dynamic, _, _,
    ⟨_, identity, _, layered, _, _⟩, _⟩, _⟩
  exact ⟨authElapsed, auth, dynamic, identity, authenticated, layered⟩

theorem operationsOf_attemptLayers_provider
    (protocol model requestIdentity dynamic request auth : List HeaderOperation)
    (identity : HeaderOperation) :
    operationsOf (runtime.attemptLayers protocol model requestIdentity dynamic request auth
      identity) .provider = runtime.providerHeaders ++ requestIdentity := by
  simp [operationsOf, attemptLayers]

theorem isProtected_headerName (built : build library profile = .ok runtime) {name : HeaderName}
    (named : runtime.idempotency.headerName = some name) :
    runtime.pipeline.isProtected name = true := by
  rcases build_eq_ok built with ⟨_, _, samePolicy, isPipeline⟩
  rw [samePolicy] at named
  have registered : name ∈ registeredHeaders profile := by simp [registeredHeaders, named]
  simp [isPipeline, isProtected, isProviderHeader, registered]

/-- Idempotency key stability: each attempt of a replayable call whose headers resolve
carries the one key of the call, whatever the other layers of that attempt are. -/
theorem idempotencyKey_stable (built : build library profile = .ok runtime)
    {callerKey : Option IdempotencyKey} {generate automaticForRetry : Bool}
    {generated : IdempotencyKey} {idempotency : ResolvedIdempotency}
    (isCall : ResolvedIdempotency.resolve runtime.idempotency callerKey generate
      automaticForRetry generated = .ok idempotency)
    (safe : idempotency.replaySafe = true) :
    ∃ name key, runtime.idempotency.headerName = some name ∧ idempotency.key = some key ∧
      ∀ (surroundings : HeaderSurroundings) (protocol model : List HeaderOperation)
        (request : List (HeaderName × HeaderValue)) (attempt : HeaderAttemptContext)
        (now elapsed : Nat) (identity : Option HeaderOperation) (resolved : ResolvedHeaders),
        idempotency.operation = .ok identity →
        runtime.resolveHeadersForAttempt surroundings protocol model identity.toList request
          attempt now = some (elapsed, .ok resolved) →
        (resolved.headers name).map HeaderValue.text = some key.value := by
  rcases ResolvedIdempotency.resolve_eq_ok isCall with ⟨sameCapability, sameHeader⟩
  have supported : runtime.idempotency.capability = .supported := by
    simp only [ResolvedIdempotency.replaySafe, Bool.and_eq_true, beq_iff_eq] at safe
    exact sameCapability ▸ safe.2
  have named := IdempotencyPolicy.headerName_of_supported supported
  rcases Option.isSome_iff_exists.mp (Bool.and_eq_true _ _ ▸ safe).1 with ⟨key, hasKey⟩
  refine ⟨.idempotencyKey, key, named, hasKey, ?_⟩
  intro surroundings protocol model request attempt now elapsed identity resolved isIdentity
    succeeded
  rcases ResolvedIdempotency.operation_of_replaySafe safe (sameHeader.trans named) isIdentity with
    ⟨other, value, isOther, sameText, rfl⟩
  rcases resolveHeadersForAttempt_eq_ok succeeded with ⟨_, auth, dynamic, client, _, layered⟩
  -- The identity operation is the last one of the provider layer, which owns the name.
  have kept := headers_of_last_operation layered
    (operationsOf_attemptLayers_provider protocol model [.setSensitive .idempotencyKey value]
      dynamic (requestOperations request) auth client)
    (isProtected_headerName built named)
  have isValue : resolved.headers .idempotencyKey = some value := kept
  rw [isValue, Option.map_some, sameText]
  exact congrArg (fun found => found.map IdempotencyKey.value) (isOther.symm.trans hasKey)

end ProviderRuntime

namespace AttemptExecutor

variable {library : UrlLibrary} {surroundings : AttemptSurroundings}
  {runtime : ProviderRuntime} {call : PreparedCall} {context : AttemptContext}

/-- A request that is handed over was resolved for its own endpoint. -/
theorem prepareRequest_eq_ok {now elapsed : Nat} {request : HttpRequest}
    (handed : prepareRequest library surroundings runtime call context now =
      some (elapsed, .ok request)) :
    ∃ identity later headersElapsed resolved,
      context.idempotency.operation = .ok identity ∧
      runtime.resolveTargetEndpoint library call.target = .ok request.endpoint ∧
      runtime.resolveHeadersForAttempt surroundings.toHeaderSurroundings call.protocolHeaders []
        identity.toList call.requestHeaders
        ⟨request.endpoint, call.facts, context.lifecycle, call.target.domainModel,
          context.localRequestId, context.attemptNumber⟩ later =
            some (headersElapsed, .ok resolved) ∧
      request.headers = resolved.headers := by
  simp only [prepareRequest, Async.bind_eq_ok, Async.ofResult_apply, Async.pure_apply,
    Option.some.injEq, Prod.mk.injEq, Except.ok.injEq] at handed
  rcases handed with ⟨_, _, _, _, ⟨_, _, _, _, ⟨_, endpoint, _, ⟨_, resolvedEndpoint⟩, ⟨_, identity, _,
    ⟨_, isIdentity⟩, ⟨headersElapsed, resolved, _, awaited, ⟨_, rfl⟩, _⟩, _⟩, _⟩, _⟩, _⟩
  exact ⟨identity, _, headersElapsed, resolved, isIdentity, resolvedEndpoint,
    future_of_awaitWithStage awaited, rfl⟩

/-- Credential destination confinement: whatever target an attempt has, a request with
authentication headers goes where the provider's binding allows. -/
theorem request_confined {profile : ProviderProfile} {binding : CredentialBinding}
    (built : ProviderRuntime.build library profile = .ok runtime)
    (bound : profile.auth.credentialBinding = some binding) {now elapsed : Nat}
    {request : HttpRequest}
    (handed : prepareRequest library surroundings runtime call context now =
      some (elapsed, .ok request)) :
    (∃ name ∈ profile.auth.protectedHeaders, (request.headers name).isSome = true) →
      binding.origin = request.endpoint.origin ∧
      ∀ start ∈ binding.requiredPathPrefix,
        Text.startsWith request.endpoint.url.path start = true := by
  intro _
  have sameAuth := (ProviderRuntime.build_eq_ok built).1
  rcases prepareRequest_eq_ok handed with ⟨_, _, _, _, _, _, headers, _⟩
  rcases ProviderRuntime.resolveHeadersForAttempt_eq_ok headers with
    ⟨_, _, _, _, authenticated, _⟩
  have valid := AuthProvider.validate_of_resolve authenticated (sameAuth ▸ bound)
  have admitted := CredentialBinding.validate_eq_ok.mp valid
  refine ⟨admitted.1, ?_⟩
  intro start required
  have isPrefix := admitted.2
  rw [CredentialBinding.admitsPath, required] at isPrefix
  exact isPrefix

end AttemptExecutor

/-! ## A request to OpenAI -/

section Samples

def sampleUrlLibrary : UrlLibrary :=
  ⟨fun url path => { url with path }, fun _ => [], fun url _ => { url with query := none }⟩

/-- A key that the profile sends with every request that has none of its own. -/
def staticKey : HeaderOperation := .setPlain .idempotencyKey ⟨"static", by decide⟩

def openAiProfile : ProviderProfile where
  providerId := openAiId
  productId := openAiChatId
  protocol := ⟨chatCompletionsId, .openAiChat .openAiChatDefault, rfl⟩
  endpoint := .absolute openAiChatEndpoint.url
  credentialBinding := .officialOpenAi
  auth := .bearer ⟨Auth.sampleKey, .officialOpenAi⟩
  clientIdentity := .philo
  providerHeaders := [staticKey]
  modelHeaders := []
  dynamicHeaderPolicy := none
  capabilities := .openAiCompatible
  modelCapabilities := []
  catalog := ⟨[], List.nodup_nil⟩
  modelProtocolContracts := []
  redirectPolicy := .disabled
  idempotency := .standardHeader
  testOnly := false

def openAiRuntime : ProviderRuntime where
  providerId := openAiProfile.providerId
  productId := openAiProfile.productId
  protocol := openAiProfile.protocol
  endpoint := openAiChatEndpoint
  endpointConfig := openAiProfile.endpoint
  endpointMode := .production
  auth := openAiProfile.auth
  clientIdentity := .philo
  providerHeaders := [staticKey]
  modelHeaders := []
  dynamicHeaderPolicy := none
  catalog := openAiProfile.catalog
  redirectPolicy := .disabled
  idempotency := .standardHeader
  pipeline := ⟨[.authorization], [.idempotencyKey, .idempotencyKey]⟩

theorem build_openAiProfile :
    ProviderRuntime.build sampleUrlLibrary openAiProfile = .ok openAiRuntime := rfl

def sampleIdempotencyKey : IdempotencyKey := ⟨"key-1", by decide, by decide, by decide⟩

def sampleIdempotency : ResolvedIdempotency :=
  ⟨some sampleIdempotencyKey, some .caller, .supported, some .idempotencyKey⟩

def openAiCall : PreparedCall where
  target := {
    providerId := openAiProfile.providerId
    productId := openAiProfile.productId
    protocolId := openAiProfile.protocol.id
    domainModel := ⟨"gpt-test", by decide, by decide⟩
    providerModel := ⟨"gpt-test", by decide, by decide, by decide⟩
    deploymentId := none }
  protocolHeaders := [.setPlain .contentType jsonValue]
  body := []
  facts := ⟨false, false, false, .text⟩
  requestHeaders := [(traceName, jsonValue)]
  maxErrorBodyBytes := 64

def openAiContext : AttemptContext where
  localRequestId := sampleRequestId
  attemptNumber := 1
  lifecycle := ⟨0, none⟩
  timeouts := .new
  idempotency := sampleIdempotency

def quietSurroundings (transport : HttpRequest → Async LlmError HttpResponse) :
    AttemptSurroundings where
  cancelledAt := none
  cacheAnswer := fun _ => .never
  headerSource := fun _ => .never
  transport

theorem resolveHeaders_openAi (transport : HttpRequest → Async LlmError HttpResponse) :
    ∃ identity resolved, sampleIdempotency.operation = .ok identity ∧
      openAiRuntime.resolveHeadersForAttempt
        (quietSurroundings transport).toHeaderSurroundings openAiCall.protocolHeaders []
        identity.toList openAiCall.requestHeaders
        ⟨openAiChatEndpoint, openAiCall.facts, ⟨0, none⟩, openAiCall.target.domainModel,
          openAiContext.localRequestId, 1⟩ 0 = some (0, .ok resolved) ∧
      (resolved.headers .authorization).isSome = true := by
  have finished : ∃ resolved, openAiRuntime.finishHeaders openAiCall.protocolHeaders []
      [.setSensitive .idempotencyKey ⟨"key-1", by decide⟩] []
      [.setSensitive .authorization bearerValue] [(traceName, jsonValue)] = .ok resolved ∧
        (resolved.headers .authorization).isSome = true :=
    ⟨_, ProviderRuntime.finishHeaders_eq_ok.mpr
      ⟨_, rfl, resolveLayers_of_sorted (by decide), rfl, rfl⟩, rfl⟩
  rcases finished with ⟨resolved, finished, carries⟩
  refine ⟨_, resolved, rfl, ?_, carries⟩
  refine Async.bind_eq_ok.mpr ⟨0, _, 0, rfl, Async.bind_eq_ok.mpr ⟨0, _, 0, rfl, ?_, rfl⟩, rfl⟩
  exact congrArg (fun result => some (0, result)) finished

theorem prepareRequest_openAi (transport : HttpRequest → Async LlmError HttpResponse) :
    ∃ request, AttemptExecutor.prepareRequest sampleUrlLibrary (quietSurroundings transport)
        openAiRuntime openAiCall openAiContext 0 = some (0, .ok request) ∧
      (request.headers .authorization).isSome = true := by
  rcases resolveHeaders_openAi transport with ⟨identity, resolved, isIdentity, headers, carries⟩
  have awaited : awaitWithStage ⟨0, none⟩ none
      ⟨.credential, some TimeoutPolicy.new.credential, some 1, false⟩
      (openAiRuntime.resolveHeadersForAttempt
        (quietSurroundings transport).toHeaderSurroundings openAiCall.protocolHeaders []
        identity.toList openAiCall.requestHeaders
        ⟨openAiChatEndpoint, openAiCall.facts, ⟨0, none⟩, openAiCall.target.domainModel,
          openAiContext.localRequestId, 1⟩) 0 = some (0, .ok resolved) := by
    exact (awaitWithStage_undisturbed_eq_ok rfl).mpr ⟨headers, by decide⟩
  refine ⟨_, Async.bind_eq_ok.mpr ⟨0, (), 0, rfl, Async.bind_eq_ok.mpr ⟨0, (), 0, rfl,
    Async.bind_eq_ok.mpr ⟨0, openAiChatEndpoint, 0, rfl, Async.bind_eq_ok.mpr ⟨0, identity, 0,
      congrArg (fun result => some (0, result)) isIdentity,
      Async.bind_eq_ok.mpr ⟨0, resolved, 0, awaited, rfl, rfl⟩, rfl⟩, rfl⟩, rfl⟩, rfl⟩, carries⟩

theorem openAi_request_confined :
    ProviderRuntime.build sampleUrlLibrary openAiProfile = .ok openAiRuntime ∧
    ∃ request, AttemptExecutor.prepareRequest sampleUrlLibrary
        (quietSurroundings fun _ => .never) openAiRuntime openAiCall openAiContext 0 =
          some (0, .ok request) ∧
      CredentialBinding.officialOpenAi.origin = request.endpoint.origin := by
  rcases prepareRequest_openAi fun _ => .never with ⟨request, handed, carries⟩
  exact ⟨build_openAiProfile, request, handed,
    (AttemptExecutor.request_confined build_openAiProfile rfl handed
      ⟨.authorization, by decide, carries⟩).1⟩

theorem openAi_idempotencyKey_stable :
    ∃ name key, openAiRuntime.idempotency.headerName = some name ∧
      sampleIdempotency.key = some key ∧
      ∃ identity resolved, sampleIdempotency.operation = .ok identity ∧
        openAiRuntime.resolveHeadersForAttempt
          (quietSurroundings fun _ => .never).toHeaderSurroundings openAiCall.protocolHeaders []
          identity.toList openAiCall.requestHeaders
          ⟨openAiChatEndpoint, openAiCall.facts, ⟨0, none⟩, openAiCall.target.domainModel,
            openAiContext.localRequestId, 1⟩ 0 = some (0, .ok resolved) ∧
        (resolved.headers name).map HeaderValue.text = some key.value := by
  have isCall : ResolvedIdempotency.resolve openAiRuntime.idempotency
      (some sampleIdempotencyKey) false false sampleIdempotencyKey = .ok sampleIdempotency := rfl
  rcases ProviderRuntime.idempotencyKey_stable build_openAiProfile isCall rfl with
    ⟨name, key, named, hasKey, stable⟩
  rcases resolveHeaders_openAi fun _ => .never with ⟨identity, resolved, isIdentity, headers, _⟩
  exact ⟨name, key, named, hasKey, identity, resolved, isIdentity, headers,
    stable _ _ _ _ _ _ _ _ _ isIdentity headers⟩

end Samples

end Philo
