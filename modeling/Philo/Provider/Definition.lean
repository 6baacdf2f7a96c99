import Philo.Provider.HeaderOwnership
import Philo.Provider.Runtime

/-! Provider definitions: what their builder checks, and the profiles that deployments of a
definition run under. -/

namespace Philo

open Result

inductive AuthScheme where
  | bearer
  | apiKeyHeader (name : HeaderName)
  | custom (kind : AuthSchemeKind) (protectedHeaders : List HeaderName)
  | none
  deriving DecidableEq

namespace AuthScheme

def kind : AuthScheme → AuthSchemeKind
  | bearer => .bearer
  | apiKeyHeader _ => .apiKeyHeader
  | custom kind _ => kind
  | none => .none

def protectedHeaders : AuthScheme → List HeaderName
  | bearer => [.authorization]
  | apiKeyHeader name => [name]
  | custom _ protectedHeaders => protectedHeaders
  | none => []

end AuthScheme

structure ProviderDefinition where
  providerId : ProviderId
  productId : ProductId
  protocol : ValidatedProtocolBinding
  endpoint : EndpointConfig
  credentialBinding : CredentialBinding
  authScheme : AuthScheme
  providerHeaders : List HeaderOperation
  modelHeaders : List HeaderOperation
  dynamicHeaderPolicy : Option DynamicHeaderPolicy
  capabilities : ProviderCapabilities
  modelCapabilities : List (ModelId × ModelCapabilityProfile)
  catalog : ModelCatalog
  modelProtocolContracts : List (ModelId × ResolvedProtocolContract)
  redirectPolicy : RedirectPolicy
  idempotency : IdempotencyPolicy

/-! ## Deployments -/

structure ResolvedProviderDeployment where
  auth : AuthProvider
  clientIdentity : ClientIdentity

def ProviderProfile.fromParts (library : UrlLibrary) (parts : ProviderProfile) :
    Except LlmError ProviderProfile := do
  parts.capabilities.validate
  parts.validateDeclarations
  parts.modelProtocolContracts.forM fun (_, contract) => parts.protocol.validateContract contract
  let endpoint ← parts.resolveEndpoint library
  parts.validateDestination endpoint
  parts.validateBinding
  .ok parts

namespace ProviderDefinition

def profile (definition : ProviderDefinition) (deployment : ResolvedProviderDeployment) :
    ProviderProfile :=
  { definition with
    auth := deployment.auth
    clientIdentity := deployment.clientIdentity
    testOnly := false }

def validateAuth (definition : ProviderDefinition) (auth : AuthProvider) :
    Except LlmError Unit := do
  let expected := definition.authScheme.protectedHeaders
  reject (auth.schemeKind ≠ definition.authScheme.kind)
    (.configuration "deployment authentication scheme does not match provider definition")
  reject (¬ (auth.protectedHeaders ⊆ expected ∧ expected ⊆ auth.protectedHeaders))
    (.configuration "deployment authentication headers do not match provider definition")
  match auth.credentialBinding with
  | none =>
    reject (definition.authScheme ≠ .none)
      (.configuration "credential-bearing deployment must expose its destination binding")
  | some binding =>
    reject (binding ≠ definition.credentialBinding)
      (.configuration "deployment credential binding does not match provider definition")

/-- `compile_resolved`, for a deployment whose limits are within the ceilings. -/
def compileResolved (library : UrlLibrary) (definition : ProviderDefinition)
    (deployment : ResolvedProviderDeployment) : Except LlmError ProviderProfile := do
  definition.validateAuth deployment.auth
  (definition.profile deployment).fromParts library

theorem profile_of_compile {library : UrlLibrary} {definition : ProviderDefinition}
    {deployment : ResolvedProviderDeployment} {profile : ProviderProfile}
    (compiled : definition.compileResolved library deployment = .ok profile) :
    profile = definition.profile deployment := by
  simp only [compileResolved, ProviderProfile.fromParts, bind_eq_ok, Except.ok.injEq] at compiled
  rcases compiled with ⟨_, _, _, _, _, _, _, _, _, _, _, _, _, _, rfl⟩
  rfl

end ProviderDefinition

/-! ## The builder -/

structure ProviderDefinitionBuilder where
  providerId : ProviderId
  productId : ProductId
  protocolId : ProtocolId
  dialect : ProtocolDialect
  contract : ResolvedProtocolContract
  endpoint : Option EndpointConfig
  credentialBinding : Option CredentialBinding
  bindToEndpointOrigin : Bool
  authScheme : Option AuthScheme
  providerHeaders : List HeaderOperation
  modelHeaders : List HeaderOperation
  dynamicHeaderPolicy : Option DynamicHeaderPolicy
  capabilities : Option ProviderCapabilities
  modelCapabilities : List (ModelId × ModelCapabilityProfile)
  catalog : Option ModelCatalog
  allowUnregisteredModels : Bool
  modelCompat : List (ModelId × CompatProfile)
  redirectPolicy : RedirectPolicy
  idempotency : IdempotencyPolicy

def ValidatedProtocolBinding.new (id : ProtocolId) (dialect : ProtocolDialect)
    (contract : ResolvedProtocolContract) : Except LlmError ValidatedProtocolBinding :=
  if named : dialect = contract.dialect ∧ id.value = (match contract.dialect with
      | .openAiChatCompletions => "openai-chat-completions"
      | .anthropicMessages => "anthropic-messages") then .ok ⟨id, contract, named.2⟩
  else .error (.configuration "protocol id, dialect, and contract do not form a supported binding")

namespace ProviderDefinitionBuilder

variable (library : UrlLibrary) (builder : ProviderDefinitionBuilder)

def selectCatalog : Except LlmError ModelCatalog :=
  match builder.catalog, builder.allowUnregisteredModels with
  | some catalog, false => .ok catalog
  | none, true => .ok ⟨[], List.nodup_nil⟩
  | _, _ => .error (.configuration
      "provider definition requires a catalog or explicit unregistered-model policy")

def validateCatalog (catalog : ModelCatalog) (protocolId : ProtocolId) : Except LlmError Unit :=
  reject (∃ entry ∈ catalog.entries, entry.key.providerId ≠ builder.providerId ∨
      entry.key.productId ≠ builder.productId ∨ entry.protocolId ≠ protocolId)
    (.configuration "catalog entry does not match provider product protocol")

def validateModelCapabilities : Except LlmError Unit :=
  reject (∃ declared ∈ builder.modelCapabilities, declared.1 ≠ declared.2.model)
    (.configuration "model capability map key does not match its declaration")

def capabilitiesFor (capabilities : ProviderCapabilities) (catalog : ModelCatalog)
    (model : ModelId) : ProviderCapabilities :=
  let declared := (builder.modelCapabilities.lookup model).elim capabilities
    fun declaration => capabilities.applyModel declaration.capabilities
  (catalog.get ⟨builder.providerId, builder.productId, model⟩).elim declared
    fun entry => declared.applyModel entry.capabilities

def validateHeaderOwners (authScheme : AuthScheme) : Except LlmError ResolvedHeaders :=
  HeaderPolicy.resolveLayers
    ⟨authScheme.protectedHeaders, builder.providerHeaders.map HeaderOperation.name⟩
    [⟨.protocol, [.setPlain .contentType HeaderPolicy.jsonValue,
        .setPlain ⟨"accept", by decide⟩ ⟨"text/event-stream", by decide⟩]⟩,
      ⟨.provider, builder.providerHeaders⟩, ⟨.model, builder.modelHeaders⟩]

def resolveDefinitionEndpoint (endpoint : EndpointConfig) (catalog : ModelCatalog) :
    Except LlmError ResolvedEndpoint :=
  if endpoint.requiresMapping then do
    let first ← okOr catalog.entries.head?
      (.configuration "endpoint template variables require an exact catalog entry")
    endpoint.resolve library .production (some first.endpointValues)
  else endpoint.resolve library .production none

def selectBinding (resolved : ResolvedEndpoint) : Except LlmError CredentialBinding :=
  if builder.bindToEndpointOrigin then CredentialBinding.exactHttpsOrigin resolved
  else okOr builder.credentialBinding
    (.configuration "provider definition requires a credential binding")

structure Parts where
  protocol : ValidatedProtocolBinding
  endpoint : EndpointConfig
  authScheme : AuthScheme
  capabilities : ProviderCapabilities
  catalog : ModelCatalog

def readParts : Except LlmError Parts := do
  let protocol ← ValidatedProtocolBinding.new builder.protocolId builder.dialect builder.contract
  let endpoint ← okOr builder.endpoint
    (.configuration "provider definition requires an endpoint")
  let authScheme ← okOr builder.authScheme
    (.configuration "provider definition requires an auth scheme")
  let capabilities ← okOr builder.capabilities
    (.configuration "provider definition requires capabilities")
  capabilities.validate
  let catalog ← builder.selectCatalog
  builder.validateCatalog catalog protocol.id
  builder.validateModelCapabilities
  reject (protocol.dialect = .anthropicMessages ∧ builder.modelCompat ≠ []) (.configuration
    "Anthropic Messages definitions cannot carry OpenAI compatibility policy")
  protocol.contract.validateCapabilities capabilities
  .ok { protocol, endpoint, authScheme, capabilities, catalog }

def assemble (parts : Parts) (credentialBinding : CredentialBinding) : ProviderDefinition :=
  { parts, builder with
    credentialBinding
    modelProtocolContracts := builder.modelCompat.map fun (model, compat) =>
      (model, .openAiChat compat) }

def define (parts : Parts) : Except LlmError ProviderDefinition := do
  let _ ← builder.validateHeaderOwners parts.authScheme
  reject (parts.protocol.dialect = .anthropicMessages ∧
      ∀ operation ∈ builder.providerHeaders, operation.name.value ≠ "anthropic-version")
    (.configuration
      "Anthropic Messages definition requires a protected anthropic-version header")
  let resolved ← resolveDefinitionEndpoint library parts.endpoint parts.catalog
  let credentialBinding ← builder.selectBinding resolved
  credentialBinding.validate resolved
  .ok (builder.assemble parts credentialBinding)

def build : Except LlmError ProviderDefinition := do
  let parts ← builder.readParts
  builder.modelCompat.forM fun (model, compat) => do
    compat.validateAgainst (builder.capabilitiesFor parts.capabilities parts.catalog model)
    parts.protocol.validateContract (.openAiChat compat)
  builder.define library parts

/-- `build` without `validate_against` for the models. -/
def buildUnchecked : Except LlmError ProviderDefinition := do
  let parts ← builder.readParts
  builder.modelCompat.forM fun (_, compat) => parts.protocol.validateContract (.openAiChat compat)
  builder.define library parts

theorem eq_of_define {library : UrlLibrary} {builder : ProviderDefinitionBuilder} {parts : Parts}
    {definition : ProviderDefinition} (defined : builder.define library parts = .ok definition) :
    ∃ credentialBinding, builder.assemble parts credentialBinding = definition := by
  simp only [define, bind_eq_ok, Except.ok.injEq] at defined
  rcases defined with ⟨_, _, _, _, _, _, binding, _, _, _, rfl⟩
  exact ⟨binding, rfl⟩

theorem build_eq_ok_iff {library : UrlLibrary} {builder : ProviderDefinitionBuilder}
    {definition : ProviderDefinition} :
    builder.build library = .ok definition ↔ builder.buildUnchecked library = .ok definition ∧
      ∀ entry ∈ builder.modelCompat, entry.2.validateAgainst
        (builder.capabilitiesFor definition.capabilities definition.catalog entry.1) = .ok () := by
  simp only [build, buildUnchecked, bind_eq_ok, forM_eq_ok, exists_unit]
  constructor
  · rintro ⟨parts, isParts, models, defined⟩
    refine ⟨⟨parts, isParts, fun entry member => (models entry member).2, defined⟩, ?_⟩
    rcases eq_of_define defined with ⟨_, rfl⟩
    exact fun entry member => (models entry member).1
  · rintro ⟨⟨parts, isParts, models, defined⟩, checked⟩
    refine ⟨parts, isParts, fun entry member => ⟨?_, models entry member⟩, defined⟩
    rcases eq_of_define defined with ⟨_, rfl⟩
    exact checked entry member

/-! ## Contracts of models -/

def TakesObjects (model : ModelId) : Prop :=
  ∃ compat, (model, compat) ∈ builder.modelCompat ∧
    compat.response.toolArguments = .stringOrObject

def catalogued (model : ModelId) : Option ModelCapabilities :=
  (builder.catalog.bind (·.get ⟨builder.providerId, builder.productId, model⟩)).map
    ModelEntry.capabilities

def declared (model : ModelId) : Option ModelCapabilities :=
  (builder.modelCapabilities.lookup model).map ModelCapabilityProfile.capabilities

def Disputed (one other : Option ModelCapabilities) : Prop :=
  (∃ said ∈ one, said.functionTools = .supported) ∧
    ∃ said ∈ other, said.functionTools ≠ .supported

def Unsupported (one other : Option ModelCapabilities) : Prop :=
  (∀ said ∈ one, said.functionTools ≠ .supported) ∧
    (∀ said ∈ other, said.functionTools ≠ .supported) ∧
    (one = none → other = none →
      ∀ said ∈ builder.capabilities, said.model.functionTools ≠ .supported)

/-- Whoever has the last word on function tools, the contract of some model is refused, or
none is. -/
def ToolsSettled : Prop :=
  (∃ model, builder.TakesObjects model ∧
    builder.Unsupported (builder.catalogued model) (builder.declared model)) ∨
  ((∃ model, builder.TakesObjects model ∧
      Disputed (builder.catalogued model) (builder.declared model)) ↔
    ∃ model, builder.TakesObjects model ∧
      Disputed (builder.declared model) (builder.catalogued model))

/-- What `build` lets through passes `validate_contracts`, and what it refuses for a model's
contract alone does not. -/
def AgreesWithRuntime : Prop :=
  (∀ definition, builder.build library = .ok definition → ∀ deployment profile,
    definition.compileResolved library deployment = .ok profile →
      profile.validateContracts = .ok ()) ∧
  ∀ definition, builder.buildUnchecked library = .ok definition →
    ¬ Succeeds (builder.build library) → ∀ deployment profile,
      definition.compileResolved library deployment = .ok profile →
        ¬ Succeeds profile.validateContracts

section Agreement

variable {library builder} {definition : ProviderDefinition}

/-- The contracts of all models, when the first that says anything about a model is right. -/
theorem contracts_iff {capabilities : ProviderCapabilities}
    (isBase : builder.capabilities = some capabilities) (valid : capabilities.validate = .ok ())
    (first second : ModelId → Option ModelCapabilities) :
    (∀ entry ∈ builder.modelCompat, entry.2.validateAgainst (capabilities.applyModel
      (((first entry.1).or (second entry.1)).getD capabilities.model)) = .ok ()) ↔
    ¬ ∃ model, builder.TakesObjects model ∧ (builder.Unsupported (first model) (second model) ∨
      Disputed (second model) (first model)) := by
  have reports : capabilities.streamingUsage = .supported := by
    simp only [ProviderCapabilities.validate, bind_eq_ok, reject_eq_ok, not_not] at valid
    exact valid.choose_spec.2
  have refused : ∀ model, (builder.Unsupported (first model) (second model) ∨
      Disputed (second model) (first model)) ↔
        (((first model).or (second model)).getD capabilities.model).functionTools ≠
          .supported := by
    intro model
    cases first model <;> cases second model <;> simp [Unsupported, Disputed, isBase]
    tauto
  simp only [refused, CompatProfile.validateAgainst, TakesObjects, ProviderCapabilities.applyModel,
    reports, bind_eq_ok, reject_eq_ok, Prod.forall]
  constructor
  · rintro holds ⟨model, ⟨compat, member, takes⟩, unsupported⟩
    exact (holds model compat member).choose_spec.2 ⟨takes, unsupported⟩
  · intro nowhere model compat member
    exact ⟨(), by simp, fun refused => nowhere ⟨model, ⟨compat, member, refused.1⟩, refused.2⟩⟩

/-- Both checks, in terms of who supports function tools. -/
theorem checks_iff (built : builder.buildUnchecked library = .ok definition)
    (deployment : ResolvedProviderDeployment) :
    (Succeeds (builder.build library) ↔ ¬ ∃ model, builder.TakesObjects model ∧
      (builder.Unsupported (builder.catalogued model) (builder.declared model) ∨
        Disputed (builder.declared model) (builder.catalogued model))) ∧
    (Succeeds (definition.profile deployment).validateContracts ↔
      ¬ ∃ model, builder.TakesObjects model ∧
        (builder.Unsupported (builder.declared model) (builder.catalogued model) ∨
          Disputed (builder.catalogued model) (builder.declared model))) := by
  simp only [Succeeds, build_eq_ok_iff, built, Except.ok.injEq, exists_eq_left']
  simp only [buildUnchecked, readParts, bind_eq_ok, okOr_eq_ok, Except.ok.injEq, exists_unit]
    at built
  rcases built with ⟨_, ⟨protocol, _, endpoint, _, scheme, _, capabilities, isBase, valid,
    catalog, isCatalog, _, _, _, base, rfl⟩, _, defined⟩
  rcases eq_of_define defined with ⟨_, same⟩
  have sameCatalog : ∀ key, catalog.get key = builder.catalog.bind (·.get key) := by
    intro key
    unfold selectCatalog at isCatalog
    split at isCatalog <;> cases isCatalog <;> simp_all [ModelCatalog.get]
  have asBuilt : ∀ model, builder.capabilitiesFor definition.capabilities definition.catalog model =
      capabilities.applyModel (((builder.catalogued model).or (builder.declared model)).getD
        capabilities.model) := by
    intro model
    rw [← same]
    unfold capabilitiesFor catalogued declared assemble
    rw [← sameCatalog]
    cases builder.modelCapabilities.lookup model <;> cases catalog.get _ <;> rfl
  have asRun : ∀ model, (definition.profile deployment).capabilitiesFor model =
      capabilities.applyModel (((builder.declared model).or (builder.catalogued model)).getD
        capabilities.model) := by
    intro model
    rw [← same]
    unfold ProviderProfile.capabilitiesFor catalogued declared ProviderDefinition.profile assemble
    rw [← sameCatalog]
    cases builder.modelCapabilities.lookup model <;> cases catalog.get _ <;> rfl
  have contracts : (definition.profile deployment).modelProtocolContracts =
      builder.modelCompat.map fun (model, compat) => (model, .openAiChat compat) := by
    rw [← same]
    rfl
  have isBaseContract : (definition.profile deployment).protocol.contract.validateCapabilities
      (definition.profile deployment).capabilities = .ok () := by
    rw [← same]
    exact base
  rw [← contracts_iff isBase valid, ← contracts_iff isBase valid]
  simp only [asBuilt, exists_unit, ProviderProfile.validateContracts, bind_eq_ok,
    forM_eq_ok, asRun, contracts, isBaseContract, true_and, List.forall_mem_map]
  exact Iff.rfl

/-- The definition and the runtime agree on the contracts of models unless, of the models
that take tool arguments as objects, some are supported by the catalog alone and none by
their declaration alone, or the other way round: the two overlay them in different orders. -/
theorem agreesWithRuntime_iff (library : UrlLibrary) (builder : ProviderDefinitionBuilder) :
    builder.AgreesWithRuntime library ↔ ∀ definition deployment profile,
      builder.buildUnchecked library = .ok definition →
        definition.compileResolved library deployment = .ok profile → builder.ToolsSettled := by
  have unsupported_comm : ∀ one other,
      builder.Unsupported one other ↔ builder.Unsupported other one := by
    unfold Unsupported
    tauto
  have settled_iff : ∀ {definition deployment profile},
      builder.buildUnchecked library = .ok definition →
        definition.compileResolved library deployment = .ok profile →
          (builder.ToolsSettled ↔
            (Succeeds (builder.build library) ↔ Succeeds profile.validateContracts)) := by
    intro definition deployment profile built compiled
    rw [ProviderDefinition.profile_of_compile compiled, (checks_iff built deployment).1,
      (checks_iff built deployment).2, not_iff_not, ToolsSettled]
    simp only [and_or_left, exists_or, unsupported_comm (builder.declared _)]
    grind
  constructor
  · rintro ⟨passes, refuses⟩ definition deployment profile built compiled
    refine (settled_iff built compiled).mpr ⟨?_, fun runs => ?_⟩
    · rintro ⟨other, isOther⟩
      cases (build_eq_ok_iff.mp isOther).1.symm.trans built
      exact ⟨(), passes _ isOther _ _ compiled⟩
    · by_contra refused
      exact refuses _ built refused _ _ compiled runs
  · intro settled
    refine ⟨fun definition isBuilt deployment profile compiled => ?_,
      fun definition built refused deployment profile compiled runs => ?_⟩
    · have built := (build_eq_ok_iff.mp isBuilt).1
      exact ((settled_iff built compiled).mp (settled _ _ _ built compiled)).mp
        ⟨_, isBuilt⟩ |>.choose_spec
    · exact refused (((settled_iff built compiled).mp (settled _ _ _ built compiled)).mpr runs)

end Agreement

def someModel : ModelId := ⟨"some-model", by decide, by decide⟩

/-- A definition whose catalog has function tools for its model, while the declaration of
the model does not say. -/
def catalogOnly : ProviderDefinitionBuilder where
  providerId := openAiId
  productId := openAiChatId
  protocolId := chatCompletionsId
  dialect := .openAiChatCompletions
  contract := .openAiChat .openAiChatDefault
  endpoint := some (.absolute .openAiChat)
  credentialBinding := some .officialOpenAi
  bindToEndpointOrigin := false
  authScheme := some .none
  providerHeaders := []
  modelHeaders := []
  dynamicHeaderPolicy := none
  capabilities := some .openAiCompatible
  modelCapabilities := [(someModel, ⟨someModel, .unknown⟩)]
  catalog := some ⟨[{
    key := ⟨openAiId, openAiChatId, someModel⟩
    providerModelId := ⟨"some-model", by decide, by decide, by decide⟩
    deploymentId := none
    wireModelValue := ⟨"some-model", by decide, by decide, by decide⟩
    protocolId := chatCompletionsId
    capabilities := { ModelCapabilities.unknown with functionTools := .supported } }], by simp⟩
  allowUnregisteredModels := false
  modelCompat := [(someModel, { CompatProfile.openAiChatDefault with
    response := { OpenAiChat.ResponseCompat.openAiChatDefault with
      toolArguments := .stringOrObject } })]
  redirectPolicy := .disabled
  idempotency := .standardHeader

def plainLibrary : UrlLibrary := ⟨fun url path => { url with path }, fun _ => [], fun url _ => url⟩

/-- The definition is built, and the runtime refuses its profile. -/
theorem catalogOnly_refused :
    ∃ definition profile, catalogOnly.build plainLibrary = .ok definition ∧
      definition.compileResolved plainLibrary ⟨.noAuth, .philo⟩ = .ok profile ∧
      profile.validateContracts = .error (.configuration
        "tool argument compatibility requires explicit function tool support") := by
  have refused : ((catalogOnly.build plainLibrary >>= fun definition =>
      definition.compileResolved plainLibrary ⟨.noAuth, .philo⟩).map
        ProviderProfile.validateContracts).toOption = some (.error (.configuration
          "tool argument compatibility requires explicit function tool support")) := by
    simp (disch := decide) only [build, define, validateHeaderOwners,
      HeaderPolicy.resolveLayers_of_sorted]
    decide +kernel
  rcases exists_ok_of_map refused with ⟨profile, compiled, validated⟩
  rcases bind_eq_ok.mp compiled with ⟨definition, built, compiled⟩
  exact ⟨definition, profile, built, compiled, validated⟩

end ProviderDefinitionBuilder

end Philo
