import Philo.Provider.Auth.CacheQuiet
import Philo.Provider.Endpoint.Audience
import Philo.Provider.Ids
import Philo.Transport.Stage

/-! Dynamic credentials: `DynamicAuth::resolve_dynamic` over the shared cache, one
call after the other. -/

namespace Philo

open Result

structure AuthContext where
  endpoint : ResolvedEndpoint
  providerId : Option ProviderId
  productId : Option ProductId
  lifecycle : Option RequestLifecycle

def AuthContext.forAttempt (endpoint : ResolvedEndpoint) (providerId : ProviderId)
    (productId : ProductId) (lifecycle : RequestLifecycle) : AuthContext :=
  ⟨endpoint, some providerId, some productId, some lifecycle⟩

/-! ## Credentials as headers -/

namespace DynamicCredential

def headerText (credential : DynamicCredential) : String :=
  match credential.scheme with
  | .bearer => "Bearer " ++ credential.key.value
  | .apiKeyHeader _ => credential.key.value

def operation (credential : DynamicCredential) : Except LlmError HeaderOperation := do
  let value ← okOr (HeaderValue.fromStr credential.headerText) (.credential .invalid)
  .ok (.setSensitive credential.scheme.header value)

theorem name_of_operation {credential : DynamicCredential} {operation : HeaderOperation}
    (built : credential.operation = .ok operation) :
    operation.name = credential.scheme.header := by
  simp only [DynamicCredential.operation, bind_eq_ok, okOr_eq_ok, Except.ok.injEq] at built
  rcases built with ⟨value, _, rfl⟩
  rfl

/-- A key that can stand after `Bearer` can also stand alone. -/
theorem operation_isOk (credential : DynamicCredential) :
    ∃ operation, credential.operation = .ok operation := by
  have visible := credential.key.visible
  have parsed : (HeaderValue.fromStr credential.headerText).isSome = true := by
    unfold headerText
    split
    · exact visible
    · simp only [HeaderValue.fromStr, Option.isSome_dite, String.toList_append,
        List.all_append, Bool.and_eq_true] at visible ⊢
      exact visible.2
  rcases Option.isSome_iff_exists.mp parsed with ⟨value, isValue⟩
  exact ⟨.setSensitive credential.scheme.header value, by simp [operation, isValue, okOr]⟩

end DynamicCredential

/-! ## The provider -/

/-- `DynamicAuth`, without its callback and its cache: the one is an event of the
surroundings, and the other is the state of the calls. Schemes are only ever added, each
after its check. -/
structure DynamicAuth where
  tenantId : TenantId
  credentialIdentity : CredentialIdentity
  binding : CredentialBinding
  allowedSchemes : List DynamicCredentialScheme
  callbackTimeout : Duration
  refreshWindow : Duration
  allowStillValidFallback : Bool
  bearerAllowed : .bearer ∈ allowedSchemes
  eligible : ∀ scheme ∈ allowedSchemes, scheme.IsEligible
  deriving DecidableEq

structure AuthCacheKey where
  tenantId : TenantId
  providerId : ProviderId
  productId : ProductId
  binding : CredentialBinding
  credentialIdentity : CredentialIdentity
  deriving DecidableEq

inductive AcquireOutcome where
  /-- `await_with_lifecycle` gave up on the request. -/
  | interrupted (error : LlmError)
  /-- The callback timeout ran out. -/
  | timedOut
  | failed (kind : CredentialFailure)
  | acquired (credential : DynamicCredential)

namespace DynamicAuth

def seconds (count : Nat) : Duration := count * 1000000000

def new (binding : CredentialBinding) (tenantId : TenantId)
    (credentialIdentity : CredentialIdentity) : DynamicAuth where
  tenantId
  credentialIdentity
  binding
  allowedSchemes := [.bearer]
  callbackTimeout := seconds 5
  refreshWindow := seconds 30
  allowStillValidFallback := true
  bearerAllowed := by simp
  eligible := by simp [DynamicCredentialScheme.IsEligible]

def withCallbackTimeout (auth : DynamicAuth) (timeout : Duration) :
    Except LlmError DynamicAuth := do
  reject (timeout = 0) (.validation ⟨"auth.callback_timeout", .outOfRange,
    "callback timeout must be positive"⟩)
  .ok { auth with callbackTimeout := timeout }

def withRefreshWindow (auth : DynamicAuth) (refreshWindow : Duration) : DynamicAuth :=
  { auth with refreshWindow }

def withStillValidFallback (auth : DynamicAuth) (allowed : Bool) : DynamicAuth :=
  { auth with allowStillValidFallback := allowed }

def addScheme (schemes : List DynamicCredentialScheme) (scheme : DynamicCredentialScheme) :
    List DynamicCredentialScheme :=
  if schemes.contains scheme then schemes else schemes ++ [scheme]

theorem mem_addScheme {schemes : List DynamicCredentialScheme}
    {scheme other : DynamicCredentialScheme} :
    other ∈ addScheme schemes scheme ↔ other ∈ schemes ∨ other = scheme := by
  unfold addScheme
  split
  · rename_i present
    constructor
    · exact Or.inl
    · rintro (member | rfl)
      · exact member
      · exact List.contains_iff_mem.mp present
  · simp

def allowApiKeyHeader (auth : DynamicAuth) (name : HeaderName) : Except LlmError DynamicAuth :=
  match valid : validateAuthName name with
  | .ok () => .ok { auth with
      allowedSchemes := addScheme auth.allowedSchemes (.apiKeyHeader name)
      bearerAllowed := mem_addScheme.mpr (.inl auth.bearerAllowed)
      eligible := by
        intro scheme member
        rcases mem_addScheme.mp member with present | rfl
        · exact auth.eligible scheme present
        · exact valid }
  | .error error => .error error

def protectedHeaders (auth : DynamicAuth) : List HeaderName :=
  auth.allowedSchemes.map DynamicCredentialScheme.header

/-- The checks before the cache is asked, and the key to ask it with. -/
def cacheKey (auth : DynamicAuth) (context : AuthContext) : Except LlmError AuthCacheKey := do
  auth.binding.validate context.endpoint
  let providerId ← okOr context.providerId (.credential .invalid)
  let productId ← okOr context.productId (.credential .invalid)
  let _ ← okOr context.lifecycle (.credential .invalid)
  .ok ⟨auth.tenantId, providerId, productId, auth.binding, auth.credentialIdentity⟩

def fetch (auth : DynamicAuth) (outcome : AcquireOutcome) (finishedAt : Instant) :
    Auth.FetchResult :=
  match outcome with
  | .interrupted error => .error error
  | .timedOut => .error (.credential .timeout)
  | .failed kind => .error (.credential kind)
  | .acquired credential => do
    reject (auth.allowedSchemes.contains credential.scheme = false ∨
      credential.expiresAt ≤ finishedAt) (.credential .invalid)
    .ok credential

def cacheRequest (auth : DynamicAuth) (key : AuthCacheKey) : Auth.RefreshCall AuthCacheKey :=
  ⟨key, auth.refreshWindow, auth.allowStillValidFallback⟩

def resolveWith (auth : DynamicAuth) (context : AuthContext)
    (answer : AuthCacheKey → Auth.FetchResult) : Except LlmError (List HeaderOperation) := do
  let key ← auth.cacheKey context
  let credential ← answer key
  let operation ← credential.operation
  .ok [operation]

end DynamicAuth

/-! ## One call after the other -/

/-- One call of `resolve_dynamic`, and what its surroundings do: the time since the
last call, and how long the callback takes and how it ends if it is run. -/
structure ResolveCall where
  context : AuthContext
  elapsed : Duration
  fetchTime : Duration
  outcome : AcquireOutcome

/-- `resolve_dynamic` on a cache that no other call is using. -/
def DynamicAuth.resolveDynamic (auth : DynamicAuth) (cache : QuietCache AuthCacheKey)
    (call : ResolveCall) : Except LlmError (List HeaderOperation) × QuietCache AuthCacheKey :=
  let cache := cache.elapse call.elapsed
  let answer key := cache.getOrRefresh (auth.cacheRequest key) call.fetchTime
    (auth.fetch call.outcome)
  let next := match auth.cacheKey call.context with
    | .ok key => (answer key).2
    | .error _ => cache
  (auth.resolveWith call.context fun key => (answer key).1, next)

def resolveAll {Member : Type} (family : Member → DynamicAuth) (cache : QuietCache AuthCacheKey) :
    List (Member × ResolveCall) → List (Member × Except LlmError (List HeaderOperation))
  | [] => []
  | (member, call) :: rest =>
    let (result, next) := (family member).resolveDynamic cache call
    (member, result) :: resolveAll family next rest

end Philo
