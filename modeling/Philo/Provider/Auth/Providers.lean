import Philo.Provider.Auth.DynamicAuth

/-! The authentication providers. A provider that carries a credential checks the
destination each time it is asked for headers, and so never hands a secret to an
endpoint that its binding does not admit. -/

namespace Philo

open Result

/-! ## Static providers -/

structure BearerAuth where
  key : ApiKey
  binding : CredentialBinding

structure ApiKeyHeaderAuth where
  name : HeaderName
  key : ApiKey
  binding : CredentialBinding
  eligible : validateAuthName name = .ok ()

structure MultiHeaderAuth where
  entries : List (HeaderName × ApiKey)
  binding : CredentialBinding
  counted : entries ≠ [] ∧ entries.length ≤ 8
  eligible : ∀ entry ∈ entries, validateAuthName entry.1 = .ok ()
  distinct : (entries.map Prod.fst).Nodup

def invalidAuthValue : LlmError :=
  .validation ⟨"auth.header_value", .invalidHeader,
    "credential cannot form an HTTP header value"⟩

def protectedHeaderError (summary : String) : LlmError :=
  .validation ⟨"request_headers.auth", .protectedHeader, summary⟩

def ApiKey.operation (key : ApiKey) (name : HeaderName) : Except LlmError HeaderOperation := do
  let value ← okOr (HeaderValue.fromStr key.value) invalidAuthValue
  .ok (.setSensitive name value)

def BearerAuth.operation (auth : BearerAuth) (context : AuthContext) :
    Except LlmError HeaderOperation := do
  auth.binding.validate context.endpoint
  let value ← okOr (HeaderValue.fromStr ("Bearer " ++ auth.key.value))
    (.validation ⟨"authorization", .invalidHeader, "Bearer credential cannot form a header"⟩)
  .ok (.setSensitive .authorization value)

namespace ApiKeyHeaderAuth

def new (name : HeaderName) (key : ApiKey) (binding : CredentialBinding) :
    Except LlmError ApiKeyHeaderAuth :=
  match eligible : validateAuthName name with
  | .ok () => .ok ⟨name, key, binding, eligible⟩
  | .error error => .error error

def operation (auth : ApiKeyHeaderAuth) (context : AuthContext) :
    Except LlmError HeaderOperation := do
  auth.binding.validate context.endpoint
  auth.key.operation auth.name

end ApiKeyHeaderAuth

namespace MultiHeaderAuth

def checkNames (seen : List HeaderName) : List HeaderName → Except LlmError Unit
  | [] => .ok ()
  | name :: rest => do
    validateAuthName name
    reject (name ∈ seen) (.validation ⟨"auth.multi_header", .invalidHeader,
      "multi-header auth contains a duplicate name"⟩)
    checkNames (name :: seen) rest

theorem checkNames_eq_ok {seen names : List HeaderName} {done : Unit} :
    checkNames seen names = .ok done ↔
      (∀ name ∈ names, validateAuthName name = .ok ()) ∧ names.Nodup ∧
        ∀ name ∈ names, name ∉ seen := by
  induction names generalizing seen with
  | nil => simp [checkNames]
  | cons name rest induction =>
    simp only [checkNames, bind_eq_ok, reject_eq_ok, exists_const, induction,
      List.nodup_cons, List.mem_cons, forall_eq_or_imp, not_or]
    constructor
    · rintro ⟨_, valid, unseen, validRest, distinct, unseenRest⟩
      exact ⟨⟨valid, validRest⟩, ⟨fun member => (unseenRest name member).1 rfl, distinct⟩,
        unseen, fun other member => (unseenRest other member).2⟩
    · rintro ⟨⟨valid, validRest⟩, ⟨absent, distinct⟩, unseen, unseenRest⟩
      refine ⟨(), valid, unseen, validRest, distinct, fun other member => ⟨?_, ?_⟩⟩
      · rintro rfl
        exact absent member
      · exact unseenRest other member

def new (entries : List (HeaderName × ApiKey)) (binding : CredentialBinding) :
    Except LlmError MultiHeaderAuth :=
  if counted : entries ≠ [] ∧ entries.length ≤ 8 then
    match checked : checkNames [] (entries.map Prod.fst) with
    | .ok () => .ok ⟨entries, binding, counted,
        fun _ member => (checkNames_eq_ok.mp checked).1 _ (List.mem_map_of_mem member),
        (checkNames_eq_ok.mp checked).2.1⟩
    | .error error => .error error
  else
    .error (.validation ⟨"auth.multi_header", .outOfRange,
      "multi-header auth requires one to eight entries"⟩)

def operations (auth : MultiHeaderAuth) (context : AuthContext) :
    Except LlmError (List HeaderOperation) := do
  auth.binding.validate context.endpoint
  auth.entries.mapM fun (name, key) => key.operation name

end MultiHeaderAuth

/-! ## Any provider -/

inductive AuthSchemeKind where
  | bearer
  | apiKeyHeader
  | multiHeader
  | dynamic
  | none
  deriving DecidableEq

inductive AuthProvider where
  | bearer (auth : BearerAuth)
  | apiKeyHeader (auth : ApiKeyHeaderAuth)
  | multiHeader (auth : MultiHeaderAuth)
  | dynamic (auth : DynamicAuth)
  | noAuth

def DynamicAuth.resolve (auth : DynamicAuth) (context : AuthContext)
    (answer : AuthCacheKey → Async LlmError DynamicCredential) :
    Async LlmError (List HeaderOperation) := do
  let key ← Async.ofResult (auth.cacheKey context)
  let credential ← answer key
  let operation ← Async.ofResult credential.operation
  pure [operation]

/-- What the cache did for one key is all that the timed call depends on. -/
theorem DynamicAuth.resolveWith_of_resolve {auth : DynamicAuth} {context : AuthContext}
    {answer : AuthCacheKey → Async LlmError DynamicCredential} {now elapsed : Nat}
    {operations : List HeaderOperation}
    (resolved : auth.resolve context answer now = some (elapsed, .ok operations)) :
    ∃ credential, auth.resolveWith context (fun _ => .ok credential) = .ok operations := by
  simp only [DynamicAuth.resolve, Async.bind_eq_ok, Async.ofResult_apply, Async.pure_apply,
    Option.some.injEq, Prod.mk.injEq, Except.ok.injEq] at resolved
  rcases resolved with ⟨_, key, _, ⟨_, isKey⟩, ⟨_, credential, _, _, ⟨_, operation, _, ⟨_, isOperation⟩,
    ⟨_, rfl⟩, _⟩, _⟩, _⟩
  exact ⟨credential, by simp [DynamicAuth.resolveWith, isKey, isOperation]⟩

namespace AuthProvider

def schemeKind : AuthProvider → AuthSchemeKind
  | bearer _ => .bearer
  | apiKeyHeader _ => .apiKeyHeader
  | multiHeader _ => .multiHeader
  | dynamic _ => .dynamic
  | noAuth => .none

def protectedHeaders : AuthProvider → List HeaderName
  | bearer _ => [.authorization]
  | apiKeyHeader auth => [auth.name]
  | multiHeader auth => auth.entries.map Prod.fst
  | dynamic auth => auth.protectedHeaders
  | noAuth => []

def credentialBinding : AuthProvider → Option CredentialBinding
  | bearer auth => some auth.binding
  | apiKeyHeader auth => some auth.binding
  | multiHeader auth => some auth.binding
  | dynamic auth => some auth.binding
  | noAuth => none

def validateEndpoint (provider : AuthProvider) (endpoint : ResolvedEndpoint) :
    Except LlmError Unit :=
  provider.credentialBinding.elim (.ok ()) (·.validate endpoint)

def validateFinal (provider : AuthProvider) (headers : HeaderMap) : Except LlmError Unit :=
  match provider with
  | bearer _ =>
    reject (((headers .authorization).bind HeaderValue.toStr?).any (fun value =>
        Text.startsWith value "Bearer " && decide (7 < Text.len value)) = false)
      (.validation ⟨"request_headers.authorization", .protectedHeader,
        "Bearer auth provider must set authorization"⟩)
  | apiKeyHeader auth =>
    reject (headers auth.name = none)
      (protectedHeaderError "API-key auth provider must set its registered header")
  | multiHeader auth =>
    reject (auth.entries.all (fun entry => (headers entry.1).isSome) = false)
      (protectedHeaderError "multi-header auth provider must set its complete group")
  | dynamic auth =>
    reject ((auth.protectedHeaders.filter fun name => (headers name).isSome).length ≠ 1)
      (.credential .invalid)
  | noAuth =>
    reject ((headers .authorization).isSome = true ∨
        (headers .proxyAuthorization).isSome = true)
      (protectedHeaderError "NoAuth runtime must not contain authorization headers")

/-- The headers for one attempt. Only a dynamic provider awaits anything. -/
def resolve (provider : AuthProvider) (context : AuthContext)
    (answer : AuthCacheKey → Async LlmError DynamicCredential) :
    Async LlmError (List HeaderOperation) :=
  match provider with
  | bearer auth => .ofResult do
      let operation ← auth.operation context
      .ok [operation]
  | apiKeyHeader auth => .ofResult do
      let operation ← auth.operation context
      .ok [operation]
  | multiHeader auth => .ofResult (auth.operations context)
  | dynamic auth => auth.resolve context answer
  | noAuth => .ofResult (.ok [])

theorem validate_of_resolve {provider : AuthProvider} {context : AuthContext}
    {answer : AuthCacheKey → Async LlmError DynamicCredential} {now elapsed : Nat}
    {operations : List HeaderOperation} {binding : CredentialBinding}
    (resolved : provider.resolve context answer now = some (elapsed, .ok operations))
    (bound : provider.credentialBinding = some binding) :
    binding.validate context.endpoint = .ok () := by
  cases provider with
  | bearer auth =>
    cases bound
    simp only [resolve, Async.ofResult_apply, Option.some.injEq, Prod.mk.injEq,
      BearerAuth.operation, bind_eq_ok] at resolved
    rcases resolved with ⟨_, _, ⟨_, valid, _⟩, _⟩
    exact valid
  | apiKeyHeader auth =>
    cases bound
    simp only [resolve, Async.ofResult_apply, Option.some.injEq, Prod.mk.injEq,
      ApiKeyHeaderAuth.operation, bind_eq_ok] at resolved
    rcases resolved with ⟨_, _, ⟨_, valid, _⟩, _⟩
    exact valid
  | multiHeader auth =>
    cases bound
    simp only [resolve, Async.ofResult_apply, Option.some.injEq, Prod.mk.injEq,
      MultiHeaderAuth.operations, bind_eq_ok] at resolved
    rcases resolved with ⟨_, _, valid, _⟩
    exact valid
  | dynamic auth =>
    cases bound
    rcases DynamicAuth.resolveWith_of_resolve resolved with ⟨_, resolvedWith⟩
    simp only [DynamicAuth.resolveWith, DynamicAuth.cacheKey, bind_eq_ok] at resolvedWith
    rcases resolvedWith with ⟨_, ⟨_, valid, _⟩, _⟩
    exact valid
  | noAuth => cases bound

end AuthProvider

end Philo
