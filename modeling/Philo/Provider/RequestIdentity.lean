import Philo.Provider.Headers

/-! The headers by which a request says who sends it and that it is the same request
again: client identity and idempotency keys. -/

namespace Philo

open Result

/-! ## Client identity -/

structure ClientIdentityFragment where
  name : String
  version : Option String
  deriving DecidableEq

structure ClientIdentity where
  product : String
  version : String
  contact : Option String
  application : Option ClientIdentityFragment
  fragments : List ClientIdentityFragment
  deriving DecidableEq

def invalidIdentity (summary : String) : LlmError :=
  .validation ⟨"client_identity", .invalidHeader, summary⟩

def ClientIdentityFragment.text (fragment : ClientIdentityFragment) : String :=
  fragment.version.elim fragment.name fun version => fragment.name ++ "/" ++ version

namespace ClientIdentity

def philo : ClientIdentity := ⟨"philo", "1.0.0-rc.1", none, none, []⟩

def headerText (identity : ClientIdentity) : String :=
  let parts := (identity.product ++ "/" ++ identity.version) ::
    (identity.application.toList ++ identity.fragments).map ClientIdentityFragment.text
  " ".intercalate parts ++ identity.contact.elim "" fun contact => " (" ++ contact ++ ")"

def headerValue (identity : ClientIdentity) : Except LlmError HeaderValue := do
  reject (512 < Text.len identity.headerText) (invalidIdentity "User-Agent exceeds 512 bytes")
  okOr (HeaderValue.fromStr identity.headerText)
    (invalidIdentity "client identity is not a valid User-Agent")

def operation (identity : ClientIdentity) : Except LlmError HeaderOperation := do
  let value ← identity.headerValue
  .ok (.setPlain .userAgent value)

end ClientIdentity

/-! ## Idempotency -/

@[ext] structure IdempotencyKey where
  value : String
  notEmpty : value ≠ ""
  bounded : Text.len value ≤ 128
  plain : Text.allAsciiAlphanumericOr ['-', '_', '.', ':'] value = true

instance : DecidableEq IdempotencyKey := fun _ _ => decidable_of_iff _ IdempotencyKey.ext_iff.symm

def idempotencyError (reason : ValidationReason) (summary : String) : LlmError :=
  .validation ⟨"idempotency_key", reason, summary⟩

namespace IdempotencyKey

def new (value : String) : Except LlmError IdempotencyKey :=
  if empty : value = "" then .error (idempotencyError .empty "idempotency key is empty")
  else if bounded : Text.len value ≤ 128 then
    if plain : Text.allAsciiAlphanumericOr ['-', '_', '.', ':'] value = true then
      .ok ⟨value, empty, bounded, plain⟩
    else
      .error (idempotencyError .invalidIdentifier
        "idempotency key contains an unsupported character")
  else
    .error (idempotencyError .outOfRange "idempotency key exceeds the SDK byte limit")

def headerValue (key : IdempotencyKey) : Except LlmError HeaderValue :=
  okOr (HeaderValue.fromStr key.value)
    (idempotencyError .invalidHeader "idempotency key cannot be encoded as an HTTP header")

theorem text_of_headerValue {key : IdempotencyKey} {value : HeaderValue}
    (built : key.headerValue = .ok value) : value.text = key.value := by
  simp only [headerValue, okOr_eq_ok, HeaderValue.fromStr] at built
  split at built <;> cases built
  rfl

end IdempotencyKey

inductive IdempotencyCapability where
  | supported
  | unsupported
  | unknown
  deriving DecidableEq

inductive IdempotencyKeySource where
  | caller
  | sdkGenerated
  deriving DecidableEq

inductive IdempotencyWire where
  | standardHeader
  deriving DecidableEq

/-- A provider policy. Only a provider that supports keys has a way to send them: the
constructors below are the only ones. -/
structure IdempotencyPolicy where
  capability : IdempotencyCapability
  wire : Option IdempotencyWire
  wired : wire.isSome = true ↔ capability = .supported
  deriving DecidableEq

namespace IdempotencyPolicy

def unknown : IdempotencyPolicy := ⟨.unknown, none, by decide⟩

def unsupported : IdempotencyPolicy := ⟨.unsupported, none, by decide⟩

def standardHeader : IdempotencyPolicy := ⟨.supported, some .standardHeader, by decide⟩

def headerName (policy : IdempotencyPolicy) : Option HeaderName :=
  policy.wire.map fun
    | .standardHeader => .idempotencyKey

theorem headerName_of_supported {policy : IdempotencyPolicy}
    (supported : policy.capability = .supported) : policy.headerName = some .idempotencyKey := by
  have hasWire := policy.wired.mpr supported
  unfold headerName
  cases isWire : policy.wire with
  | none => simp [isWire] at hasWire
  | some wire => rfl

end IdempotencyPolicy

structure ResolvedIdempotency where
  key : Option IdempotencyKey
  source : Option IdempotencyKeySource
  capability : IdempotencyCapability
  header : Option HeaderName
  deriving DecidableEq

namespace ResolvedIdempotency

/-- `ResolvedIdempotency::resolve`, where `generated` is the key that
`IdempotencyKey::generate` would make. -/
def resolve (policy : IdempotencyPolicy) (callerKey : Option IdempotencyKey)
    (generate automaticForRetry : Bool) (generated : IdempotencyKey) :
    Except LlmError ResolvedIdempotency := do
  reject ((callerKey.isSome = true ∨ generate = true) ∧ policy.capability = .unsupported)
    (idempotencyError .capabilityUnsupported
      "selected provider does not declare idempotency-key support")
  reject ((callerKey.isSome = true ∨ generate = true) ∧ policy.capability = .unknown)
    (idempotencyError .capabilityUnknown
      "selected provider does not declare idempotency-key support")
  let (key, source) :=
    match callerKey with
    | some key => (some key, some .caller)
    | none =>
      if policy.capability = .supported ∧ (generate = true ∨ automaticForRetry = true) then
        (some generated, some .sdkGenerated)
      else (none, none)
  .ok ⟨key, source, policy.capability, policy.headerName⟩

def operation (idempotency : ResolvedIdempotency) : Except LlmError (Option HeaderOperation) :=
  match idempotency.key, idempotency.header with
  | some key, some name => do
    let value ← key.headerValue
    .ok (some (.setSensitive name value))
  | none, _ | some _, none => .ok none

def replaySafe (idempotency : ResolvedIdempotency) : Bool :=
  idempotency.key.isSome && idempotency.capability == .supported

theorem resolve_eq_ok {policy : IdempotencyPolicy} {callerKey : Option IdempotencyKey}
    {generate automaticForRetry : Bool} {generated : IdempotencyKey}
    {idempotency : ResolvedIdempotency}
    (resolved : resolve policy callerKey generate automaticForRetry generated = .ok idempotency) :
    idempotency.capability = policy.capability ∧ idempotency.header = policy.headerName := by
  simp only [resolve, bind_eq_ok, Except.ok.injEq] at resolved
  rcases resolved with ⟨_, _, _, _, rfl⟩
  exact ⟨rfl, rfl⟩

/-- A call that may be replayed has a key, and sends it as a header. -/
theorem operation_of_replaySafe {idempotency : ResolvedIdempotency} {name : HeaderName}
    {operation : Option HeaderOperation} (safe : idempotency.replaySafe = true)
    (named : idempotency.header = some name) (built : idempotency.operation = .ok operation) :
    ∃ key value, idempotency.key = some key ∧ value.text = key.value ∧
      operation = some (.setSensitive name value) := by
  unfold replaySafe at safe
  unfold ResolvedIdempotency.operation at built
  cases hasKey : idempotency.key with
  | none => simp [hasKey] at safe
  | some key =>
    simp only [hasKey, named, bind_eq_ok, Except.ok.injEq] at built
    rcases built with ⟨value, isValue, rfl⟩
    exact ⟨key, value, rfl, IdempotencyKey.text_of_headerValue isValue, rfl⟩

end ResolvedIdempotency

end Philo
