import Philo.Provider.Runtime
import Philo.Transport.Body

/-! One attempt: endpoint, headers, authentication and HTTP. -/

namespace Philo

open Result

/-! ## Stage timeouts -/

def maxStageTimeout : Duration := 3600 * 1000000000

structure TimeoutPolicy where
  credential : Duration
  responseHeader : Duration
  firstEvent : Duration
  idleStream : Duration
  valid : ∀ timeout ∈ [credential, responseHeader, firstEvent, idleStream],
    0 < timeout ∧ timeout ≤ maxStageTimeout

namespace TimeoutPolicy

def new : TimeoutPolicy where
  credential := 10 * 1000000000
  responseHeader := 30 * 1000000000
  firstEvent := 30 * 1000000000
  idleStream := 60 * 1000000000
  valid := by decide

def tightenWith (policy request : TimeoutPolicy) : TimeoutPolicy where
  credential := min policy.credential request.credential
  responseHeader := min policy.responseHeader request.responseHeader
  firstEvent := min policy.firstEvent request.firstEvent
  idleStream := min policy.idleStream request.idleStream
  valid := by
    have ownValid := policy.valid
    have requestValid := request.valid
    have tightened {own asked : Duration} (ownBounds : 0 < own ∧ own ≤ maxStageTimeout)
        (askedBounds : 0 < asked ∧ asked ≤ maxStageTimeout) :
        0 < min own asked ∧ min own asked ≤ maxStageTimeout :=
      ⟨Nat.lt_min.mpr ⟨ownBounds.1, askedBounds.1⟩,
        Nat.le_trans (Nat.min_le_left own asked) ownBounds.2⟩
    simp only [List.mem_cons, List.not_mem_nil, or_false, forall_eq_or_imp, forall_eq]
      at ownValid requestValid ⊢
    exact ⟨tightened ownValid.1 requestValid.1, tightened ownValid.2.1 requestValid.2.1,
      tightened ownValid.2.2.1 requestValid.2.2.1, tightened ownValid.2.2.2 requestValid.2.2.2⟩

def longest (timeouts : TimeoutPolicy) : Duration :=
  max (max timeouts.credential timeouts.responseHeader)
    (max timeouts.firstEvent timeouts.idleStream)

end TimeoutPolicy

/-! ## Attempts -/

structure AttemptContext where
  localRequestId : LocalRequestId
  attemptNumber : UInt32
  lifecycle : RequestLifecycle
  timeouts : TimeoutPolicy
  idempotency : ResolvedIdempotency

/-- The parts of a prepared call that an attempt reads. Both operations resolve their
endpoint in the same way, and both expect an event stream. -/
structure PreparedCall where
  target : ResolvedTarget
  protocolHeaders : List HeaderOperation
  body : List UInt8
  facts : RequestFacts
  requestHeaders : List (HeaderName × HeaderValue)
  maxErrorBodyBytes : Nat

structure ResponseMeta where
  localRequestId : LocalRequestId
  providerRequestId : Option ProviderRequestId
  status : UInt16
  headerNames : List HeaderName

inductive AttemptResponseBody where
  | success (body : ByteStream)
  | httpFailure (body : LimitedBody)

structure AttemptResponse where
  responseMeta : ResponseMeta
  outcome : AttemptResponseBody

structure AttemptSurroundings extends HeaderSurroundings where
  transport : HttpRequest → Async LlmError HttpResponse

def isSuccessStatus (status : UInt16) : Bool := 200 ≤ status && status < 300

def headerValueOf (headers : List (HeaderName × HeaderValue)) (name : String) :
    Option HeaderValue :=
  (headers.find? fun entry => entry.1.value == name).map Prod.snd

def providerRequestIdOf (headers : List (HeaderName × HeaderValue)) :
    Option ProviderRequestId := do
  let value ← (headerValueOf headers "x-request-id").or (headerValueOf headers "request-id")
  let text ← value.toStr?
  (ValidatedId.new .providerRequest text).toOption

def validateResponseHeaderLimits (headers : List (HeaderName × HeaderValue)) :
    Except LlmError Unit :=
  reject (128 < headers.length ∨
      headers.any (fun entry => decide (16 * 1024 < entry.2.text.length)) = true ∨
      64 * 1024 < (headers.map fun entry => Text.len entry.1.value + entry.2.text.length).sum)
    (.protocol (.new "response header resource limit exceeded"))

def isEventStream (value : String) : Bool :=
  Text.eqIgnoreAsciiCase
    (Text.trim (String.ofList (value.toList.takeWhile (· != ';')))) "text/event-stream"

def validateSuccessHeaders (headers : List (HeaderName × HeaderValue)) : Except LlmError Unit :=
  reject (((headerValueOf headers "content-type").bind HeaderValue.toStr?).any isEventStream
      = false)
    (.protocol (.new "successful response is not text/event-stream"))

namespace AttemptExecutor

section Execute

variable (library : UrlLibrary) (surroundings : AttemptSurroundings)
  (runtime : ProviderRuntime) (call : PreparedCall) (context : AttemptContext)

def prepareRequest : Async LlmError HttpRequest := do
  Async.ofResult (reject (context.attemptNumber = 0)
    (.validation ⟨"attempt_number", .zero, "attempt number starts at one"⟩))
  lifecyclePreflight context.lifecycle surroundings.cancelledAt
  let endpoint ← Async.ofResult (runtime.resolveTargetEndpoint library call.target)
  let identity ← Async.ofResult context.idempotency.operation
  let resolved ← awaitWithStage context.lifecycle surroundings.cancelledAt
    ⟨.credential, some context.timeouts.credential, some context.attemptNumber, false⟩
    (runtime.resolveHeadersForAttempt surroundings.toHeaderSurroundings call.protocolHeaders []
      identity.toList call.requestHeaders
      ⟨endpoint, call.facts, context.lifecycle, call.target.domainModel,
        context.localRequestId, context.attemptNumber⟩)
  pure ⟨endpoint, resolved.headers, call.body, context.lifecycle, context.localRequestId,
    runtime.redirectPolicy⟩

def sendRequest (request : HttpRequest) : Async LlmError HttpResponse :=
  awaitWithStage context.lifecycle surroundings.cancelledAt
    ⟨.responseHeader, some context.timeouts.responseHeader, some context.attemptNumber, false⟩
    (surroundings.transport request)

/-- `execute` from the response head on. Nothing bounds the time that the body of an
error response takes. -/
def receiveResponse (fuel : Nat) (response : HttpResponse) : Async LlmError AttemptResponse := do
  Async.ofResult (validateResponseHeaderLimits response.headers)
  let responseMeta : ResponseMeta :=
    ⟨context.localRequestId, providerRequestIdOf response.headers, response.status,
      (response.headers.map Prod.fst).eraseDups⟩
  if isSuccessStatus response.status then do
    Async.ofResult (validateSuccessHeaders response.headers)
    pure ⟨responseMeta, .success response.body⟩
  else do
    let body ← response.body.readBodyLimited fuel call.maxErrorBodyBytes
    pure ⟨responseMeta, .httpFailure body⟩

/-- `AttemptExecutor::execute`, reading at most `fuel` items of an error body. -/
def execute (fuel : Nat) : Async LlmError AttemptResponse := do
  let request ← prepareRequest library surroundings runtime call context
  let response ← sendRequest surroundings context request
  receiveResponse call context fuel response

end Execute

end AttemptExecutor

end Philo
