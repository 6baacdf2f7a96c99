import Philo.Provider.Http

/-! Layered header resolution with protected-field enforcement. -/

namespace Philo

open Result

/-! ## Protected headers -/

def protectedHeaders : List String :=
  ["authorization", "proxy-authorization", "host", "content-length", "content-type", "accept",
    "transfer-encoding", "connection", "cookie", "set-cookie", "user-agent"]

def authIneligibleHeaders : List String :=
  ["host", "content-length", "content-type", "accept", "transfer-encoding", "connection",
    "cookie", "set-cookie", "user-agent"]

def isProtectedHeader (name : HeaderName) : Bool := protectedHeaders.contains name.value

def isAuthIneligibleHeader (name : HeaderName) : Bool := authIneligibleHeaders.contains name.value

/-! ## Operations -/

inductive HeaderSource where
  | transport
  | protocol
  | provider
  | clientIdentity
  | model
  | dynamicPolicy
  | request
  | auth
  deriving DecidableEq

def HeaderSource.rank : HeaderSource → Nat
  | transport => 0
  | protocol => 1
  | provider => 2
  | clientIdentity => 3
  | model => 4
  | dynamicPolicy => 5
  | request => 6
  | auth => 7

structure SensitiveHeaderValue where
  value : HeaderValue
  sensitive : Bool
  deriving DecidableEq

inductive HeaderOperation where
  | set (name : HeaderName) (value : SensitiveHeaderValue)
  | remove (name : HeaderName)
  deriving DecidableEq

namespace HeaderOperation

def setPlain (name : HeaderName) (value : HeaderValue) : HeaderOperation := .set name ⟨value, false⟩

def setSensitive (name : HeaderName) (value : HeaderValue) : HeaderOperation :=
  .set name ⟨value, true⟩

def name : HeaderOperation → HeaderName
  | set name _ => name
  | remove name => name

end HeaderOperation

structure HeaderLayer where
  source : HeaderSource
  operations : List HeaderOperation

/-! ## Resolution -/

/-- The headers of a request. Resolution only inserts and removes, so that a name
has at most one value. -/
abbrev HeaderMap := HeaderName → Option HeaderValue

structure HeaderStep where
  name : HeaderName
  source : HeaderSource
  present : Bool
  isProtected : Bool
  sensitive : Bool
  deriving DecidableEq

structure ResolvedHeaders where
  headers : HeaderMap
  steps : List HeaderStep

structure HeaderPolicy where
  authHeaders : List HeaderName
  providerHeaders : List HeaderName

def ordinaryHeader (name : HeaderName) : Bool :=
  Text.startsWith name.value "x-" || name.value == "idempotency-key"

def requestHeaderError (name : HeaderName) (summary : String) : LlmError :=
  .validation ⟨"request_headers." ++ name.value, .protectedHeader, summary⟩

namespace HeaderPolicy

def isAuthHeader (policy : HeaderPolicy) (name : HeaderName) : Bool :=
  policy.authHeaders.contains name

def isProviderHeader (policy : HeaderPolicy) (name : HeaderName) : Bool :=
  policy.providerHeaders.contains name

def isProtected (policy : HeaderPolicy) (name : HeaderName) : Bool :=
  isProtectedHeader name || policy.isAuthHeader name || policy.isProviderHeader name

def allowsUnregistered (policy : HeaderPolicy) (source : HeaderSource) (name : HeaderName) :
    Bool :=
  match source with
  | .transport | .auth => false
  | .protocol => true
  | .provider => policy.isProviderHeader name || ordinaryHeader name
  | .model | .dynamicPolicy | .request => ordinaryHeader name
  | .clientIdentity => Text.startsWith name.value "x-"

def allows (policy : HeaderPolicy) (source : HeaderSource) (name : HeaderName) : Bool :=
  match name.value with
  | "authorization" | "proxy-authorization" => source == .auth && policy.isAuthHeader name
  | "content-type" | "accept" => source == .protocol
  | "user-agent" => source == .clientIdentity
  | "host" | "content-length" | "transfer-encoding" | "connection" | "cookie"
  | "set-cookie" => false
  | _ =>
    if policy.isAuthHeader name then source == .auth
    else if policy.isProviderHeader name then source == .provider
    else policy.allowsUnregistered source name

def validateOperation (policy : HeaderPolicy) (source : HeaderSource) (name : HeaderName)
    (sensitive : Bool) : Except LlmError Unit := do
  reject (policy.allows source name = false)
    (requestHeaderError name "header is protected for this source")
  reject (source = .auth ∧ sensitive = false)
    (requestHeaderError name "authentication headers must be sensitive")
  reject (source ≠ .auth ∧ sensitive = true ∧
      ¬ (source = .provider ∧ policy.isProviderHeader name = true))
    (requestHeaderError name "ordinary header layers cannot carry sensitive values")

def applyOperation (policy : HeaderPolicy) (resolved : ResolvedHeaders)
    (entry : HeaderSource × HeaderOperation) : Except LlmError ResolvedHeaders :=
  match entry.2 with
  | .set name value => do
    policy.validateOperation entry.1 name value.sensitive
    .ok ⟨Function.update resolved.headers name (some value.value),
      resolved.steps ++ [⟨name, entry.1, true, policy.isProtected name, value.sensitive⟩]⟩
  | .remove name => do
    policy.validateOperation entry.1 name false
    .ok ⟨Function.update resolved.headers name none,
      resolved.steps ++ [⟨name, entry.1, false, policy.isProtected name, false⟩]⟩

/-- All operations in the order in which they apply. The sort is stable. -/
def orderedOperations (layers : List HeaderLayer) : List (HeaderSource × HeaderOperation) :=
  (layers.mergeSort fun first second => first.source.rank ≤ second.source.rank).flatMap
    fun layer => layer.operations.map fun operation => (layer.source, operation)

def resolveLayers (policy : HeaderPolicy) (layers : List HeaderLayer) :
    Except LlmError ResolvedHeaders :=
  (orderedOperations layers).foldlM policy.applyOperation ⟨fun _ => none, []⟩

end HeaderPolicy

end Philo
