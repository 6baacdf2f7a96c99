import Philo.Provider.Headers

/-! Secrets and short-lived credentials. -/

namespace Philo

open Result

@[ext] structure ApiKey where
  value : String
  notEmpty : value ≠ ""
  trimmed : Text.trim value = value
  visible : (HeaderValue.fromStr ("Bearer " ++ value)).isSome = true

instance : DecidableEq ApiKey := fun _ _ => decidable_of_iff _ ApiKey.ext_iff.symm

def ApiKey.new (value : String) : Except LlmError ApiKey :=
  if empty : value = "" then
    .error (.validation ⟨"api_key", .empty, "API key must not be empty"⟩)
  else if trimmed : Text.trim value = value then
    if visible : (HeaderValue.fromStr ("Bearer " ++ value)).isSome = true then
      .ok ⟨value, empty, trimmed, visible⟩
    else
      .error (.validation ⟨"api_key", .invalidHeader,
        "API key is not valid in a Bearer header"⟩)
  else
    .error (.validation ⟨"api_key", .boundaryWhitespace,
      "API key must not have boundary whitespace"⟩)

def validateAuthName (name : HeaderName) : Except LlmError Unit :=
  reject (128 < Text.len name.value ∨ isAuthIneligibleHeader name = true)
    (.validation ⟨"auth.header_name", .protectedHeader,
      "header belongs to a non-authentication owner"⟩)

inductive DynamicCredentialScheme where
  | bearer
  | apiKeyHeader (name : HeaderName)
  deriving DecidableEq

namespace DynamicCredentialScheme

def header : DynamicCredentialScheme → HeaderName
  | .bearer => .authorization
  | .apiKeyHeader name => name

/-- Every way to make a credential, or to allow a scheme, checks the name first. -/
def IsEligible : DynamicCredentialScheme → Prop
  | .bearer => True
  | .apiKeyHeader name => validateAuthName name = .ok ()

end DynamicCredentialScheme

structure DynamicCredential where
  key : ApiKey
  scheme : DynamicCredentialScheme
  expiresAt : Instant
  representable : expiresAt ≤ maxInstant
  eligible : scheme.IsEligible
  deriving DecidableEq

namespace DynamicCredential

def new (key : ApiKey) (scheme : DynamicCredentialScheme) (eligible : scheme.IsEligible)
    (expiresAt : Instant) (representable : expiresAt ≤ maxInstant) (now : Instant) :
    Except LlmError DynamicCredential := do
  reject (expiresAt ≤ now) (.credential .invalid)
  .ok ⟨key, scheme, expiresAt, representable, eligible⟩

def bearer (key : ApiKey) (expiresAt : Instant) (representable : expiresAt ≤ maxInstant)
    (now : Instant) : Except LlmError DynamicCredential :=
  new key .bearer trivial expiresAt representable now

def apiKeyHeader (name : HeaderName) (key : ApiKey) (expiresAt : Instant)
    (representable : expiresAt ≤ maxInstant) (now : Instant) : Except LlmError DynamicCredential :=
  match valid : validateAuthName name with
  | .ok () => new key (.apiKeyHeader name) valid expiresAt representable now
  | .error error => .error error

def isFreshAt (credential : DynamicCredential) (now : Instant) (refreshWindow : Duration) :
    Bool :=
  decide (now ≤ credential.expiresAt ∧ refreshWindow < credential.expiresAt - now)

theorem refreshWindow_of_isFreshAt {credential : DynamicCredential} {now : Instant}
    {refreshWindow : Duration} (fresh : credential.isFreshAt now refreshWindow = true) :
    refreshWindow < credential.expiresAt := by
  have remaining := (of_decide_eq_true fresh).2
  exact Nat.lt_of_lt_of_le remaining (Nat.sub_le ..)

theorem expiresAt_of_isFreshAt {credential : DynamicCredential} {now : Instant}
    {refreshWindow : Duration} (fresh : credential.isFreshAt now refreshWindow = true) :
    now < credential.expiresAt := by
  have remaining := (of_decide_eq_true fresh).2
  exact Nat.lt_of_sub_pos (Nat.zero_lt_of_lt remaining)

end DynamicCredential

end Philo
