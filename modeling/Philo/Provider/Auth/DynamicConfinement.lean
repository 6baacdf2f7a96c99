import Philo.Provider.Auth.DynamicAuth

/-! Which headers a dynamic credential can end up in. The cache key leaves out the
allowed schemes, and a cached credential is not checked against them again. -/

namespace Philo

open Result

namespace DynamicAuth

structure SamePartition (first second : DynamicAuth) : Prop where
  tenantId : first.tenantId = second.tenantId
  credentialIdentity : first.credentialIdentity = second.credentialIdentity
  binding : first.binding = second.binding

/-- Some cached credential would be fresh enough for the provider, or it may fall back to
one. No credential outlives the clock. -/
def MayReuse (auth : DynamicAuth) : Prop :=
  auth.allowStillValidFallback = true ∨ auth.refreshWindow < maxInstant

theorem mayReuse_of_cacheRequest {auth : DynamicAuth} {key : AuthCacheKey}
    {credential : DynamicCredential} (reuses : (auth.cacheRequest key).MayReuse credential) :
    auth.MayReuse := by
  apply reuses.imp_right
  intro longLived
  exact Nat.lt_of_lt_of_le longLived credential.representable

theorem mem_protectedHeaders {auth : DynamicAuth} {header : HeaderName} :
    header ∈ auth.protectedHeaders ↔
      ∃ scheme ∈ auth.allowedSchemes, scheme.header = header := by
  simp [protectedHeaders]

theorem cacheKey_eq_ok {auth : DynamicAuth} {context : AuthContext} {key : AuthCacheKey}
    (asked : auth.cacheKey context = .ok key) :
    auth.binding.validate context.endpoint = .ok () ∧ key.tenantId = auth.tenantId ∧
      key.binding = auth.binding ∧ key.credentialIdentity = auth.credentialIdentity := by
  simp only [cacheKey, bind_eq_ok, okOr_eq_ok, Except.ok.injEq] at asked
  rcases asked with ⟨_, valid, _, _, _, _, _, _, rfl⟩
  exact ⟨valid, rfl, rfl, rfl⟩

theorem scheme_of_fetch {auth : DynamicAuth} {outcome : AcquireOutcome} {finishedAt : Instant}
    {credential : DynamicCredential} (fetched : auth.fetch outcome finishedAt = .ok credential) :
    credential.scheme ∈ auth.allowedSchemes := by
  cases outcome with
  | acquired acquired =>
    simp only [fetch, bind_eq_ok, reject_eq_ok, exists_const, Except.ok.injEq] at fetched
    rcases fetched with ⟨accepted, rfl⟩
    simpa using (not_or.mp accepted).1
  | interrupted error => cases fetched
  | timedOut => cases fetched
  | failed kind => cases fetched

end DynamicAuth

open DynamicAuth

variable {Member : Type} {family : Member → DynamicAuth}

/-- Every operation that a call returns writes a header which its own provider protects. -/
def Confined (family : Member → DynamicAuth) : Prop :=
  ∀ calls, ∀ entry ∈ resolveAll family .empty calls, ∀ operations, entry.2 = .ok operations →
    ∀ operation ∈ operations, operation.name ∈ (family entry.1).protectedHeaders

/-- A provider that may reuse what another one has cached protects the headers of the
other. -/
def HeadersAgree (family : Member → DynamicAuth) : Prop :=
  ∀ first second, (family first).SamePartition (family second) → (family second).MayReuse →
    (∃ endpoint, (family first).binding.validate endpoint = .ok ()) →
    ∀ header ∈ (family first).protectedHeaders, header ∈ (family second).protectedHeaders

/-! ## Agreement suffices -/

def Fetchable (family : Member → DynamicAuth) (key : AuthCacheKey)
    (credential : DynamicCredential) : Prop :=
  ∃ member endpoint, (family member).binding.validate endpoint = .ok () ∧
    key.tenantId = (family member).tenantId ∧ key.binding = (family member).binding ∧
    key.credentialIdentity = (family member).credentialIdentity ∧
    credential.scheme ∈ (family member).allowedSchemes

theorem fetchable_of_fetch {member : Member} {context : AuthContext} {key : AuthCacheKey}
    (asked : (family member).cacheKey context = .ok key) {outcome : AcquireOutcome}
    {finishedAt : Instant} {credential : DynamicCredential}
    (fetched : (family member).fetch outcome finishedAt = .ok credential) :
    Fetchable family key credential := by
  rcases cacheKey_eq_ok asked with ⟨valid, tenant, binding, identity⟩
  exact ⟨member, context.endpoint, valid, tenant, binding, identity, scheme_of_fetch fetched⟩

theorem protects_of_fetch {auth : DynamicAuth} {outcome : AcquireOutcome} {finishedAt : Instant}
    {credential : DynamicCredential} (fetched : auth.fetch outcome finishedAt = .ok credential) :
    credential.scheme.header ∈ auth.protectedHeaders :=
  mem_protectedHeaders.mpr ⟨_, scheme_of_fetch fetched, rfl⟩

theorem HeadersAgree.protects (agree : HeadersAgree family) {member : Member}
    {context : AuthContext} {key : AuthCacheKey}
    (asked : (family member).cacheKey context = .ok key) {credential : DynamicCredential}
    (fetchable : Fetchable family key credential)
    (reuses : ((family member).cacheRequest key).MayReuse credential) :
    credential.scheme.header ∈ (family member).protectedHeaders := by
  rcases cacheKey_eq_ok asked with ⟨_, tenant, binding, identity⟩
  rcases fetchable with ⟨fetcher, endpoint, valid, tenant', binding', identity', allowed⟩
  refine agree fetcher member ⟨?_, ?_, ?_⟩ (mayReuse_of_cacheRequest reuses) ⟨endpoint, valid⟩ _ ?_
  · rw [← tenant, ← tenant']
  · rw [← identity, ← identity']
  · rw [← binding, ← binding']
  · exact mem_protectedHeaders.mpr ⟨_, allowed, rfl⟩

theorem resolveDynamic_holds {cache : QuietCache AuthCacheKey}
    (holds : cache.Holds (Fetchable family)) (member : Member) (call : ResolveCall) :
    ((family member).resolveDynamic cache call).2.Holds (Fetchable family) := by
  simp only [resolveDynamic]
  split
  · rename_i key asked
    exact (holds.elapse call.elapsed).getOrRefresh fun _ _ fetched =>
      fetchable_of_fetch asked fetched
  · exact holds

theorem HeadersAgree.resolveDynamic (agree : HeadersAgree family)
    {cache : QuietCache AuthCacheKey} (holds : cache.Holds (Fetchable family))
    {member : Member} {call : ResolveCall} {operations : List HeaderOperation}
    (resolved : ((family member).resolveDynamic cache call).1 = .ok operations) :
    ∀ operation ∈ operations, operation.name ∈ (family member).protectedHeaders := by
  simp only [DynamicAuth.resolveDynamic, DynamicAuth.resolveWith, bind_eq_ok,
    Except.ok.injEq] at resolved
  rcases resolved with ⟨key, asked, credential, answered, operation, built, rfl⟩
  intro other isOperation
  rw [List.mem_singleton.mp isOperation, DynamicCredential.name_of_operation built]
  rcases (holds.elapse call.elapsed).getOrRefresh_ok answered with fetched | ⟨fetchable, reuses⟩
  · exact protects_of_fetch fetched
  · exact agree.protects asked fetchable reuses

theorem HeadersAgree.resolveAll (agree : HeadersAgree family)
    (calls : List (Member × ResolveCall)) {cache : QuietCache AuthCacheKey}
    (holds : cache.Holds (Fetchable family)) :
    ∀ entry ∈ resolveAll family cache calls, ∀ operations, entry.2 = .ok operations →
      ∀ operation ∈ operations, operation.name ∈ (family entry.1).protectedHeaders := by
  induction calls generalizing cache with
  | nil => simp [Philo.resolveAll]
  | cons head rest induction =>
    rcases head with ⟨member, call⟩
    simp only [Philo.resolveAll, List.forall_mem_cons]
    exact ⟨fun operations resolved => agree.resolveDynamic holds resolved,
      induction (resolveDynamic_holds holds member call)⟩

/-- Calls that overlap, past the checks that come before the cache. -/
structure AskedCalls (family : Member → DynamicAuth) (CallId : Type) where
  member : CallId → Member
  context : CallId → AuthContext
  key : CallId → AuthCacheKey
  asked : ∀ call, (family (member call)).cacheKey (context call) = .ok (key call)

def AskedCalls.requests {CallId : Type} (calls : AskedCalls family CallId) (call : CallId) :
    Auth.RefreshCall AuthCacheKey :=
  (family (calls.member call)).cacheRequest (calls.key call)

/-- Agreement also suffices for calls that overlap, with dropped futures among them. -/
theorem HeadersAgree.overlapping (agree : HeadersAgree family) {CallId : Type}
    [DecidableEq CallId] (calls : AskedCalls family CallId) {actions : List (Auth.Action CallId)}
    (fetches : ∀ call credential, .completeFetch call (.ok credential) ∈ actions →
      ∃ outcome finishedAt,
        (family (calls.member call)).fetch outcome finishedAt = .ok credential)
    {world : Auth.World CallId AuthCacheKey}
    (visits : (Auth.cacheSystem calls.requests).Visits .initial actions world) {call : CallId}
    {credential : DynamicCredential} (returned : world.point call = .returned (.ok credential))
    {operation : HeaderOperation} (built : credential.operation = .ok operation) :
    operation.name ∈ (family (calls.member call)).protectedHeaders := by
  let returns (call : CallId) (credential : DynamicCredential) : Prop :=
    credential.scheme.header ∈ (family (calls.member call)).protectedHeaders
  have meets : ∀ action ∈ actions,
      Auth.FetchMeets calls.requests (Fetchable family) returns action := by
    intro action taken
    unfold Auth.FetchMeets
    split
    · rename_i fetcher fetched
      rcases fetches fetcher fetched taken with ⟨_, _, isFetched⟩
      exact ⟨fetchable_of_fetch (calls.asked fetcher) isFetched, protects_of_fetch isFetched⟩
    · trivial
  have reused : Auth.ReturnsReused calls.requests (Fetchable family) returns :=
    fun call credential fetchable reuses => agree.protects (calls.asked call) fetchable reuses
  rw [DynamicCredential.name_of_operation built]
  exact Auth.returned_meets reused meets visits returned

/-! ## Agreement is necessary -/

def sampleContext (endpoint : ResolvedEndpoint) : AuthContext :=
  .forAttempt endpoint ⟨"p", by decide, by decide⟩ ⟨"p", by decide, by decide, by decide⟩
    ⟨0, none⟩

theorem cacheKey_sampleContext {first second : DynamicAuth} (same : first.SamePartition second)
    {endpoint : ResolvedEndpoint} (valid : first.binding.validate endpoint = .ok ()) :
    ∃ key, first.cacheKey (sampleContext endpoint) = .ok key ∧
      second.cacheKey (sampleContext endpoint) = .ok key := by
  simp only [cacheKey, sampleContext, AuthContext.forAttempt, okOr, ← same.binding,
    ← same.tenantId, ← same.credentialIdentity, valid, ok_bind]
  exact ⟨_, rfl, rfl⟩

section Steps

variable {auth : DynamicAuth} {cache : QuietCache AuthCacheKey} {call : ResolveCall}
  {key : AuthCacheKey} {credential : DynamicCredential}

theorem resolveDynamic_stores (asked : auth.cacheKey call.context = .ok key)
    (absent : cache.credentials key = none)
    (fetched : auth.fetch call.outcome (cache.now + call.elapsed + call.fetchTime) =
      .ok credential) :
    (auth.resolveDynamic cache call).2.now = cache.now + call.elapsed + call.fetchTime ∧
      (auth.resolveDynamic cache call).2.credentials key = some credential := by
  have answer : (cache.elapse call.elapsed).getOrRefresh (auth.cacheRequest key) call.fetchTime
      (auth.fetch call.outcome) = _ := QuietCache.getOrRefresh_of_absent absent fetched
  simp only [resolveDynamic, asked, answer]
  exact ⟨rfl, Function.update_self ..⟩

theorem resolveDynamic_reuses (asked : auth.cacheKey call.context = .ok key)
    (cached : cache.credentials key = some credential)
    (unexpired : cache.now + call.elapsed < credential.expiresAt)
    (reusable : auth.allowStillValidFallback = true ∨
      credential.isFreshAt (cache.now + call.elapsed) auth.refreshWindow = true)
    (timedOut : call.outcome = .timedOut)
    {operation : HeaderOperation} (built : credential.operation = .ok operation) :
    (auth.resolveDynamic cache call).1 = .ok [operation] := by
  have failed : auth.fetch call.outcome (cache.now + call.elapsed + call.fetchTime) =
      .error (.credential .timeout) := by
    rw [timedOut]
    rfl
  have answer : ((cache.elapse call.elapsed).getOrRefresh (auth.cacheRequest key) call.fetchTime
      (auth.fetch call.outcome)).1 = .ok credential :=
    QuietCache.getOrRefresh_of_reusable cached unexpired reusable failed
  simp [resolveDynamic, resolveWith, asked, answer, built]

end Steps

/-- The first provider fetches a credential that lives as long as the clock. The callback of
the second one times out, and it returns what is cached. -/
theorem resolveAll_fetchThenReuse {endpoint : ResolvedEndpoint} {first second : Member}
    (same : (family first).SamePartition (family second))
    (valid : (family first).binding.validate endpoint = .ok ()) {credential : DynamicCredential}
    (allowed : credential.scheme ∈ (family first).allowedSchemes)
    (longLived : credential.expiresAt = maxInstant) (reuses : (family second).MayReuse)
    {operation : HeaderOperation} (built : credential.operation = .ok operation) :
    (second, .ok [operation]) ∈ resolveAll family .empty
      [(first, ⟨sampleContext endpoint, 0, 0, .acquired credential⟩),
        (second, ⟨sampleContext endpoint, 0, 0, .timedOut⟩)] := by
  rcases cacheKey_sampleContext same valid with ⟨key, firstAsks, secondAsks⟩
  let fetches : ResolveCall := ⟨sampleContext endpoint, 0, 0, .acquired credential⟩
  let timesOut : ResolveCall := ⟨sampleContext endpoint, 0, 0, .timedOut⟩
  have unexpired : 0 < credential.expiresAt := longLived ▸ (by decide : 0 < maxInstant)
  have fetched : (family first).fetch fetches.outcome 0 = .ok credential := by
    simp [fetches, fetch, reject, allowed, unexpired.ne']
  have stored : ((family first).resolveDynamic .empty fetches).2.now = 0 ∧ _ :=
    resolveDynamic_stores firstAsks rfl fetched
  have reusable : (family second).allowStillValidFallback = true ∨
      credential.isFreshAt 0 (family second).refreshWindow = true := by
    apply reuses.imp_right
    intro fresh
    simpa [DynamicCredential.isFreshAt, longLived] using fresh
  have found : ((family second).resolveDynamic _ timesOut).1 = .ok [operation] :=
    resolveDynamic_reuses secondAsks stored.2 (by rw [stored.1]; exact unexpired)
      (by rw [stored.1]; exact reusable) rfl built
  simp only [resolveAll]
  rw [← found]
  exact List.mem_cons_of_mem _ List.mem_cons_self

/-- A family that shares a cache confines its credentials exactly when each provider that
may reuse one protects the headers of its whole partition. -/
theorem confined_iff_headersAgree (family : Member → DynamicAuth) :
    Confined family ↔ HeadersAgree family := by
  constructor
  · intro confined first second same reuses ⟨endpoint, valid⟩ header isProtected
    rcases mem_protectedHeaders.mp isProtected with ⟨scheme, allowed, rfl⟩
    let credential : DynamicCredential :=
      ⟨Auth.sampleKey, scheme, maxInstant, Nat.le_refl _, (family first).eligible scheme allowed⟩
    rcases credential.operation_isOk with ⟨operation, built⟩
    rw [← DynamicCredential.name_of_operation built]
    exact confined _ _ (resolveAll_fetchThenReuse same valid allowed rfl reuses built) _ rfl
      operation (by simp)
  · intro agree calls
    exact agree.resolveAll calls fun key credential isCached => by cases isCached

/-! ## Two providers that disagree -/

def openAiChatEndpoint : ResolvedEndpoint where
  url := .openAiChat
  origin := .new "https" "api.openai.com" 443
  diagnostics := .default
  originOf := by decide
  validated := ⟨.production, by decide⟩

def xApiKey : HeaderName := ⟨"x-api-key", by decide⟩

def bearerOnly : DynamicAuth :=
  .new .officialOpenAi ⟨"tenant", by decide, by decide, by decide⟩
    ⟨"account", by decide, by decide, by decide⟩

/-- A provider that only allows Bearer credentials writes `x-api-key`, because another
one with the same tenant, identity and binding has filled the cache. -/
theorem bearerOnly_returns_apiKeyHeader :
    ∃ extended credential value,
      bearerOnly.allowApiKeyHeader xApiKey = .ok extended ∧
      DynamicCredential.apiKeyHeader xApiKey Auth.sampleKey (seconds 60) (by decide) 0 =
        .ok credential ∧
      resolveAll (fun isExtended => if isExtended then extended else bearerOnly) .empty
          [(true, ⟨sampleContext openAiChatEndpoint, 0, 0, .acquired credential⟩),
            (false, ⟨sampleContext openAiChatEndpoint, 0, 0, .timedOut⟩)] =
        [(true, .ok [.setSensitive xApiKey value]), (false, .ok [.setSensitive xApiKey value])] ∧
      xApiKey ∉ bearerOnly.protectedHeaders :=
  ⟨_, _, ⟨"k", by decide⟩, rfl, rfl, rfl, by decide⟩

def keyOrBearer : DynamicAuth :=
  { bearerOnly with
    allowedSchemes := [.bearer, .apiKeyHeader xApiKey]
    bearerAllowed := by simp
    eligible := by
      have valid : validateAuthName xApiKey = .ok () := rfl
      simp [DynamicCredentialScheme.IsEligible, valid] }

/-- Two members of one partition that protect the same headers and differ in when they
refresh. -/
def keyFamily : Bool → DynamicAuth
  | false => keyOrBearer
  | true => (keyOrBearer.withRefreshWindow 0).withStillValidFallback false

theorem headersAgree_keyFamily : HeadersAgree keyFamily := by
  intro first second _ _ _ header isProtected
  cases first <;> cases second <;> exact isProtected

def keyCalls : AskedCalls keyFamily Bool where
  member call := call
  context _ := sampleContext openAiChatEndpoint
  key _ := ⟨bearerOnly.tenantId, ⟨"p", by decide, by decide⟩,
    ⟨"p", by decide, by decide, by decide⟩, .officialOpenAi, bearerOnly.credentialIdentity⟩
  asked call := by cases call <;> rfl

def sharedCredential : DynamicCredential :=
  ⟨Auth.sampleKey, .apiKeyHeader xApiKey, seconds 60, by decide, rfl⟩

/-- The second call joins the fetch of the first, is notified, and finds what it cached. -/
def joinThenHit : List (Auth.Action Bool) :=
  [.start false, .acquire false, .examine false, .start true, .acquire true, .examine true,
    .createNotified true, .completeFetch false (.ok sharedCredential), .acquire false,
    .publish false, .notifyWaiters false, .resume true, .acquire true, .examine true]

theorem keyCalls_protected : ∃ world operation,
    (Auth.cacheSystem keyCalls.requests).run .initial joinThenHit = some world ∧
      world.point true = .returned (.ok sharedCredential) ∧
      sharedCredential.operation = .ok operation ∧ operation.name = xApiKey ∧
      operation.name ∈ (keyFamily true).protectedHeaders := by
  refine ⟨_, _, rfl, rfl, rfl, rfl, headersAgree_keyFamily.overlapping keyCalls ?_
    ⟨joinThenHit, [], rfl, rfl⟩ (show Auth.World.point _ true = _ from rfl) rfl⟩
  intro call credential fetched
  have isFirst : call = false ∧ credential = sharedCredential := by
    simpa [joinThenHit] using fetched
  rw [isFirst.1, isFirst.2]
  exact ⟨.acquired sharedCredential, 0, rfl⟩

end Philo
