import Philo.Provider.Endpoint.Template

/-! Endpoint configuration and its resolver. -/

namespace Philo

open Result

inductive EndpointConfig where
  | baseAndPath (baseUrl : Url) (endpointPath : String)
  | template (baseUrl : Url) (path : EndpointTemplate) (query : EndpointQuery)
  | absolute (url : Url)

namespace EndpointConfig

def requiresMapping : EndpointConfig → Bool
  | .template _ path _ => path.requiresValues
  | .baseAndPath _ _ | .absolute _ => false

/-- The URL that the configuration stands for, before the network policy. -/
def resolveUrl (library : UrlLibrary) (config : EndpointConfig)
    (values : Option EndpointValues) : Except LlmError (Url × EndpointResolutionDiagnostics) :=
  match config with
  | .absolute url => do
    reject (url.query.isSome = true)
      (configurationError "absolute endpoint query is forbidden")
    .ok (url, .default)
  | .baseAndPath baseUrl endpointPath => do
    reject (baseUrl.query.isSome = true)
      (configurationError "fixed base endpoint query is forbidden")
    let path ← EndpointTemplate.parse endpointPath
    let (rendered, used) ← path.render baseUrl.path none
    .ok (library.setPath baseUrl rendered, ⟨used, []⟩)
  | .template baseUrl path query => do
    let (rendered, used) ← path.render baseUrl.path values
    let (url, queryDiagnostics) ← query.apply library (library.setPath baseUrl rendered)
    .ok (url, ⟨used, queryDiagnostics⟩)

def resolve (library : UrlLibrary) (config : EndpointConfig) (mode : EndpointMode)
    (values : Option EndpointValues) : Except LlmError ResolvedEndpoint := do
  let (url, diagnostics) ← config.resolveUrl library values
  ResolvedEndpoint.validatedNew mode url diagnostics

end EndpointConfig

end Philo
