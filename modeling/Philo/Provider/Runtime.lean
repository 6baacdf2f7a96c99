import Philo.Provider.Auth.Providers
import Philo.Provider.Contract
import Philo.Provider.DynamicHeaders
import Philo.Provider.Endpoint.Config
import Philo.Provider.RequestIdentity

/-! The validated provider runtime: what `build` checks, and how one attempt gets its
endpoint and its headers. -/

namespace Philo

open Result

/-! ## Catalogs and profiles -/

structure ModelKey where
  providerId : ProviderId
  productId : ProductId
  domainModelId : ModelId
  deriving DecidableEq

structure ModelEntry where
  key : ModelKey
  providerModelId : ProviderModelId
  deploymentId : Option DeploymentId
  wireModelValue : WireModelValue
  protocolId : ProtocolId
  capabilities : ModelCapabilities
  deriving DecidableEq

structure ModelCatalog where
  entries : List ModelEntry
  distinct : (entries.map ModelEntry.key).Nodup

def ModelCatalog.get (catalog : ModelCatalog) (key : ModelKey) : Option ModelEntry :=
  catalog.entries.find? fun entry => entry.key = key

def ModelEntry.endpointValues (entry : ModelEntry) : EndpointValues :=
  ⟨entry.key.productId, entry.providerModelId, entry.deploymentId⟩

structure ProviderProfile where
  providerId : ProviderId
  productId : ProductId
  protocol : ValidatedProtocolBinding
  endpoint : EndpointConfig
  credentialBinding : CredentialBinding
  auth : AuthProvider
  clientIdentity : ClientIdentity
  providerHeaders : List HeaderOperation
  modelHeaders : List HeaderOperation
  dynamicHeaderPolicy : Option DynamicHeaderPolicy
  capabilities : ProviderCapabilities
  modelCapabilities : List (ModelId × ModelCapabilityProfile)
  catalog : ModelCatalog
  modelProtocolContracts : List (ModelId × ResolvedProtocolContract)
  redirectPolicy : RedirectPolicy
  idempotency : IdempotencyPolicy
  testOnly : Bool

namespace ProviderProfile

def endpointMode (profile : ProviderProfile) : EndpointMode :=
  if profile.testOnly then .testOnly else .production

def validateEntries (profile : ProviderProfile) : Except LlmError Unit :=
  reject (profile.catalog.entries.any (fun entry =>
      decide (entry.key.providerId ≠ profile.providerId ∨
        entry.key.productId ≠ profile.productId ∨
        entry.protocolId ≠ profile.protocol.id)) = true)
    (.configuration "catalog entry does not match provider product protocol")

def validateDeclarations (profile : ProviderProfile) : Except LlmError Unit :=
  reject (profile.modelCapabilities.any (fun declared =>
      decide (declared.1 ≠ declared.2.model)) = true)
    (.configuration "model capability map key does not match its declaration")

def capabilitiesFor (profile : ProviderProfile) (model : ModelId) : ProviderCapabilities :=
  let catalogued := (profile.catalog.get ⟨profile.providerId, profile.productId, model⟩).elim
    profile.capabilities fun entry => profile.capabilities.applyModel entry.capabilities
  (profile.modelCapabilities.lookup model).elim catalogued
    fun declaration => catalogued.applyModel declaration.capabilities

def validateContracts (profile : ProviderProfile) : Except LlmError Unit := do
  profile.protocol.contract.validateCapabilities profile.capabilities
  profile.modelProtocolContracts.forM fun (model, contract) =>
    contract.validateCapabilities (profile.capabilitiesFor model)

def validatePolicies (profile : ProviderProfile) : Except LlmError Unit := do
  profile.capabilities.validate
  profile.validateEntries
  profile.validateDeclarations
  profile.modelProtocolContracts.forM fun (_, contract) =>
    profile.protocol.validateContract contract
  reject (profile.protocol.dialect = .anthropicMessages ∧ profile.modelProtocolContracts ≠ [])
    (.configuration "Anthropic Messages profiles cannot carry OpenAI compatibility policy")
  profile.validateContracts

def resolveEntryEndpoint (library : UrlLibrary) (profile : ProviderProfile)
    (entry : ModelEntry) : Except LlmError ResolvedEndpoint :=
  profile.endpoint.resolve library profile.endpointMode (some entry.endpointValues)

def resolveEndpoint (library : UrlLibrary) (profile : ProviderProfile) :
    Except LlmError ResolvedEndpoint :=
  if profile.endpoint.requiresMapping then do
    let first ← okOr profile.catalog.entries.head?
      (.configuration "endpoint template variables require an exact catalog entry")
    profile.resolveEntryEndpoint library first
  else profile.endpoint.resolve library profile.endpointMode none

/-- The provider's own binding is the profile's, and only a provider without a
credential may have none. -/
def validateBinding (profile : ProviderProfile) : Except LlmError Unit :=
  match profile.auth.credentialBinding with
  | some binding =>
    reject (binding ≠ profile.credentialBinding)
      (.configuration "authentication binding does not match provider credential binding")
  | none =>
    reject (profile.auth.schemeKind ≠ .none) (.configuration
      "credential-bearing authentication must expose its destination binding")

def validateDestination (profile : ProviderProfile) (endpoint : ResolvedEndpoint) :
    Except LlmError Unit := do
  profile.credentialBinding.validate endpoint
  profile.auth.validateEndpoint endpoint

end ProviderProfile

/-! ## The runtime -/

structure ProviderRuntime where
  providerId : ProviderId
  productId : ProductId
  protocol : ValidatedProtocolBinding
  endpoint : ResolvedEndpoint
  endpointConfig : EndpointConfig
  endpointMode : EndpointMode
  auth : AuthProvider
  clientIdentity : ClientIdentity
  providerHeaders : List HeaderOperation
  modelHeaders : List HeaderOperation
  dynamicHeaderPolicy : Option DynamicHeaderPolicy
  catalog : ModelCatalog
  redirectPolicy : RedirectPolicy
  idempotency : IdempotencyPolicy
  pipeline : HeaderPolicy

structure ResolvedTarget where
  providerId : ProviderId
  productId : ProductId
  protocolId : ProtocolId
  domainModel : ModelId
  providerModel : ProviderModelId
  deploymentId : Option DeploymentId

structure RequestFacts where
  containsTools : Bool
  containsImages : Bool
  reasoningEnabled : Bool
  responseFormat : ResponseFormatKind

structure HeaderAttemptContext where
  endpoint : ResolvedEndpoint
  facts : RequestFacts
  lifecycle : RequestLifecycle
  modelId : ModelId
  localRequestId : LocalRequestId
  attemptNumber : UInt32

/-- What happens around the headers of one attempt: when the request is cancelled, what
the credential cache answers, and what the header callback does. -/
structure HeaderSurroundings where
  cancelledAt : Option Instant
  cacheAnswer : AuthCacheKey → Async LlmError DynamicCredential
  headerSource : DynamicHeaderSource

namespace ProviderRuntime

def registeredHeaders (profile : ProviderProfile) : List HeaderName :=
  profile.providerHeaders.map HeaderOperation.name ++ profile.idempotency.headerName.toList

def build (library : UrlLibrary) (profile : ProviderProfile) :
    Except LlmError ProviderRuntime := do
  profile.validatePolicies
  let endpoint ← profile.resolveEndpoint library
  profile.validateDestination endpoint
  profile.validateBinding
  profile.catalog.entries.forM fun entry => do
    let mapped ← profile.resolveEntryEndpoint library entry
    profile.validateDestination mapped
  .ok {
    providerId := profile.providerId
    productId := profile.productId
    protocol := profile.protocol
    endpoint
    endpointConfig := profile.endpoint
    endpointMode := profile.endpointMode
    auth := profile.auth
    clientIdentity := profile.clientIdentity
    providerHeaders := profile.providerHeaders
    modelHeaders := profile.modelHeaders
    dynamicHeaderPolicy := profile.dynamicHeaderPolicy
    catalog := profile.catalog
    redirectPolicy := profile.redirectPolicy
    idempotency := profile.idempotency
    pipeline := ⟨profile.auth.protectedHeaders, registeredHeaders profile⟩ }

/-- `resolve_target_endpoint`: the endpoint of an attempt is resolved anew from the
target, which may name a model that the catalog does not have. -/
def resolveTargetEndpoint (library : UrlLibrary) (runtime : ProviderRuntime)
    (target : ResolvedTarget) : Except LlmError ResolvedEndpoint := do
  reject (target.providerId ≠ runtime.providerId ∨ target.protocolId ≠ runtime.protocol.id)
    (.configuration "prepared call target does not match provider runtime")
  reject (target.productId ≠ runtime.productId)
    (.configuration "prepared call product does not match provider runtime")
  runtime.endpointConfig.resolve library runtime.endpointMode
    (some ⟨target.productId, target.providerModel, target.deploymentId⟩)

def requestOperations (headers : List (HeaderName × HeaderValue)) : List HeaderOperation :=
  headers.map fun (name, value) => .setPlain name value

def attemptLayers (runtime : ProviderRuntime)
    (protocol model requestIdentity dynamic request auth : List HeaderOperation)
    (identity : HeaderOperation) : List HeaderLayer :=
  [⟨.transport, []⟩, ⟨.protocol, protocol⟩, ⟨.provider, runtime.providerHeaders ++
    requestIdentity⟩, ⟨.clientIdentity, [identity]⟩, ⟨.model, runtime.modelHeaders ++ model⟩,
    ⟨.dynamicPolicy, dynamic⟩, ⟨.request, request⟩, ⟨.auth, auth⟩]

def dynamicOperations (runtime : ProviderRuntime) (surroundings : HeaderSurroundings)
    (attempt : HeaderAttemptContext) : Async LlmError (List HeaderOperation) :=
  match runtime.dynamicHeaderPolicy with
  | none => pure []
  | some policy =>
    policy.resolve surroundings.headerSource
      ⟨runtime.providerId, runtime.productId, attempt.modelId, runtime.protocol.id,
        attempt.localRequestId, attempt.attemptNumber, attempt.facts.containsTools,
        attempt.facts.containsImages, attempt.facts.reasoningEnabled,
        attempt.facts.responseFormat, attempt.lifecycle.deadline⟩
      attempt.lifecycle surroundings.cancelledAt

def finishHeaders (runtime : ProviderRuntime)
    (protocol model requestIdentity dynamic auth : List HeaderOperation)
    (request : List (HeaderName × HeaderValue)) : Except LlmError ResolvedHeaders := do
  let identity ← runtime.clientIdentity.operation
  let resolved ← runtime.pipeline.resolveLayers (runtime.attemptLayers protocol model
    requestIdentity dynamic (requestOperations request) auth identity)
  reject ((resolved.headers .contentType).map HeaderValue.text ≠ some "application/json")
    (.validation ⟨"request_headers.content-type", .protectedHeader,
      "generation protocol must set application/json"⟩)
  runtime.auth.validateFinal resolved.headers
  .ok resolved

def resolveHeadersForAttempt (runtime : ProviderRuntime) (surroundings : HeaderSurroundings)
    (protocol model requestIdentity : List HeaderOperation)
    (request : List (HeaderName × HeaderValue)) (attempt : HeaderAttemptContext) :
    Async LlmError ResolvedHeaders := do
  let auth ← runtime.auth.resolve
    (.forAttempt attempt.endpoint runtime.providerId runtime.productId attempt.lifecycle)
    surroundings.cacheAnswer
  let dynamic ← runtime.dynamicOperations surroundings attempt
  Async.ofResult (runtime.finishHeaders protocol model requestIdentity dynamic auth request)

end ProviderRuntime

end Philo
