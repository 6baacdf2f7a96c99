import Philo.Provider.Endpoint.Policy

/-! Resolved endpoints, and the destinations that a credential may be sent to. -/

namespace Philo

open Result EndpointNetworkPolicy

/-! ## Resolved endpoints -/

inductive EndpointPathVariable where
  | product
  | providerModel
  | deployment
  deriving DecidableEq

inductive EndpointQuerySource where
  | productProfile
  | deploymentMapping
  | testConfiguration
  deriving DecidableEq

inductive EndpointQueryAction where
  | set
  | remove
  deriving DecidableEq

structure EndpointQueryDiagnostic where
  name : String
  action : EndpointQueryAction
  source : EndpointQuerySource
  deriving DecidableEq

structure EndpointResolutionDiagnostics where
  pathVariables : List EndpointPathVariable
  query : List EndpointQueryDiagnostic
  deriving DecidableEq

def EndpointResolutionDiagnostics.default : EndpointResolutionDiagnostics := ⟨[], []⟩

/-- A fully validated endpoint. Both callers of `ResolvedEndpoint::new` have just
validated the URL, so the endpoint keeps the proof. -/
structure ResolvedEndpoint where
  url : Url
  origin : Origin
  diagnostics : EndpointResolutionDiagnostics
  originOf : Origin.fromUrl url = .ok origin
  validated : ∃ mode, (forMode mode).validate url = .ok ()

namespace ResolvedEndpoint

def new (url : Url) (diagnostics : EndpointResolutionDiagnostics)
    (validated : ∃ mode, (forMode mode).validate url = .ok ()) :
    Except LlmError ResolvedEndpoint :=
  match originOf : Origin.fromUrl url with
  | .ok origin => .ok ⟨url, origin, diagnostics, originOf, validated⟩
  | .error error => .error error

def validatedNew (mode : EndpointMode) (url : Url)
    (diagnostics : EndpointResolutionDiagnostics) : Except LlmError ResolvedEndpoint :=
  match accepted : (forMode mode).validate url with
  | .ok () => new url diagnostics ⟨mode, accepted⟩
  | .error error => .error error

theorem validatedNew_of_accepted {mode : EndpointMode} {url : Url} {origin : Origin}
    (diagnostics : EndpointResolutionDiagnostics)
    (accepted : (forMode mode).validate url = .ok ())
    (originOf : Origin.fromUrl url = .ok origin) : validatedNew mode url diagnostics =
      .ok ⟨url, origin, diagnostics, originOf, ⟨mode, accepted⟩⟩ := by
  unfold validatedNew
  split
  · unfold new
    split
    · rename_i other isOrigin
      have same : other = origin := Except.ok.inj (isOrigin.symm.trans originOf)
      subst same
      rfl
    · rename_i refused
      rw [originOf] at refused
      cases refused
  · rename_i refused
    rw [accepted] at refused
    cases refused

theorem new_eq_ok {url : Url} {diagnostics : EndpointResolutionDiagnostics}
    {validated : ∃ mode, (forMode mode).validate url = .ok ()}
    {endpoint : ResolvedEndpoint} (built : new url diagnostics validated = .ok endpoint) :
    endpoint.url = url ∧ endpoint.diagnostics = diagnostics := by
  unfold new at built
  split at built
  · cases built
    exact ⟨rfl, rfl⟩
  · cases built

theorem validatedNew_eq_ok {mode : EndpointMode} {url : Url}
    {diagnostics : EndpointResolutionDiagnostics} {endpoint : ResolvedEndpoint}
    (built : validatedNew mode url diagnostics = .ok endpoint) :
    endpoint.url = url ∧ endpoint.diagnostics = diagnostics := by
  unfold validatedNew at built
  split at built
  · exact new_eq_ok built
  · cases built

end ResolvedEndpoint

/-! ## Credential bindings -/

inductive CredentialAudience where
  | officialOpenAi
  | officialAnthropic
  | openRouterApi
  | deepSeekApi
  | zaiStandard
  | zaiCoding
  deriving DecidableEq

structure CredentialBinding where
  origin : Origin
  requiredPathPrefix : Option String
  label : String
  deriving DecidableEq

namespace CredentialBinding

def exactHttpsOrigin (endpoint : ResolvedEndpoint) : Except LlmError CredentialBinding := do
  reject (endpoint.origin.scheme ≠ requiredEndpointScheme)
    (configurationError "production credential binding requires an HTTPS endpoint")
  .ok ⟨endpoint.origin, none, "exact-https-origin"⟩

def official (host label : String) : CredentialBinding := ⟨.new "https" host 443, none, label⟩

def officialWithPath (host path label : String) : CredentialBinding :=
  ⟨.new "https" host 443, some path, label⟩

def officialOpenAi : CredentialBinding := official "api.openai.com" "official-openai"

def officialAnthropic : CredentialBinding := official "api.anthropic.com" "official-anthropic"

def ofAudience : CredentialAudience → CredentialBinding
  | .officialOpenAi => officialOpenAi
  | .officialAnthropic => officialAnthropic
  | .openRouterApi => official "openrouter.ai" "openrouter"
  | .deepSeekApi => official "api.deepseek.com" "deepseek"
  | .zaiStandard => officialWithPath "api.z.ai" "/api/paas/v4/" "zai-standard"
  | .zaiCoding => officialWithPath "api.z.ai" "/api/coding/paas/v4/" "zai-coding"

def admitsPath (binding : CredentialBinding) (path : String) : Bool :=
  binding.requiredPathPrefix.all fun start => Text.startsWith path start

def validate (binding : CredentialBinding) (endpoint : ResolvedEndpoint) :
    Except LlmError Unit :=
  reject (¬ (binding.origin = endpoint.origin ∧ binding.admitsPath endpoint.url.path = true))
    (configurationError "credential binding does not match endpoint origin")

theorem validate_eq_ok {binding : CredentialBinding} {endpoint : ResolvedEndpoint}
    {done : Unit} : binding.validate endpoint = .ok done ↔
      binding.origin = endpoint.origin ∧ binding.admitsPath endpoint.url.path = true := by
  simp [validate]

end CredentialBinding

/-! ## Redirects -/

inductive RedirectPolicy where
  | disabled
  | sameOrigin
  deriving DecidableEq

namespace RedirectPolicy

def hopMode (source : ResolvedEndpoint) : EndpointMode :=
  if source.origin.scheme = "https" ∧ isLoopbackUrl source.url = false then .production
  else .testOnly

def validateInner (policy : RedirectPolicy) (source : ResolvedEndpoint) (target : Url)
    (binding : Option CredentialBinding) : Except LlmError ResolvedEndpoint := do
  reject (policy = .disabled) (configurationError "redirects are disabled")
  reject (target.query.isSome = true) (configurationError "redirect query is forbidden")
  let endpoint ← ResolvedEndpoint.validatedNew (hopMode source) target .default
  reject (endpoint.origin ≠ source.origin)
    (configurationError "cross-origin redirect is forbidden")
  reject (source.origin.scheme = "https" ∧ endpoint.origin.scheme ≠ "https")
    (configurationError "HTTPS redirect downgrade is forbidden")
  binding.elim (.ok ()) (·.validate endpoint)
  .ok endpoint

def validate (policy : RedirectPolicy) (source : ResolvedEndpoint) (target : Url) :
    Except LlmError Unit :=
  (validateInner policy source target none).map fun _ => ()

def validateHop (policy : RedirectPolicy) (source : ResolvedEndpoint) (target : Url)
    (binding : CredentialBinding) : Except LlmError ResolvedEndpoint :=
  validateInner policy source target (some binding)

end RedirectPolicy

end Philo
