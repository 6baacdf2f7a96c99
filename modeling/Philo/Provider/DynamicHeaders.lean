import Philo.Provider.Headers
import Philo.Provider.Ids
import Philo.Transport.Stage

/-! Headers that a callback chooses for each attempt, within an allowlist and budgets. -/

namespace Philo

open Result

inductive ResponseFormatKind where
  | text
  | jsonObject
  | jsonSchema
  deriving DecidableEq

structure DynamicHeaderContext where
  providerId : ProviderId
  productId : ProductId
  modelId : ModelId
  protocolId : ProtocolId
  localRequestId : LocalRequestId
  attemptNumber : UInt32
  containsTools : Bool
  containsImages : Bool
  reasoningEnabled : Bool
  responseFormat : ResponseFormatKind
  deadline : Option Instant

/-- `DynamicHeaderSource`. An error stands for a failure or a panic of the callback. -/
abbrev DynamicHeaderSource := DynamicHeaderContext → Async Unit (List HeaderOperation)

structure DynamicHeaderPolicy where
  allowedHeaders : List HeaderName
  timeout : Duration
  maxOperations : Nat
  maxBytes : Nat
  counted : allowedHeaders ≠ [] ∧ allowedHeaders.length ≤ 32
  unprotected : ∀ name ∈ allowedHeaders, isProtectedHeader name = false
  timed : timeout ≠ 0
  budgeted : (maxOperations ≠ 0 ∧ maxOperations ≤ 64) ∧ maxBytes ≠ 0 ∧ maxBytes ≤ 64 * 1024

namespace DynamicHeaderPolicy

def new (allowedHeaders : List HeaderName) : Except LlmError DynamicHeaderPolicy :=
  if counted : allowedHeaders ≠ [] ∧ allowedHeaders.length ≤ 32 then
    if unprotected : ∀ name ∈ allowedHeaders, isProtectedHeader name = false then
      .ok ⟨allowedHeaders, 1000000000, 16, 4096, counted, unprotected, by decide, by decide⟩
    else .error (.headerPolicy .invalidOperation)
  else .error (.headerPolicy .invalidOperation)

def withTimeout (policy : DynamicHeaderPolicy) (timeout : Duration) :
    Except LlmError DynamicHeaderPolicy :=
  if timed : timeout ≠ 0 then .ok { policy with timeout, timed }
  else .error (.headerPolicy .timeout)

def withBudget (policy : DynamicHeaderPolicy) (maxOperations maxBytes : Nat) :
    Except LlmError DynamicHeaderPolicy :=
  if budgeted : (maxOperations ≠ 0 ∧ maxOperations ≤ 64) ∧ maxBytes ≠ 0 ∧
      maxBytes ≤ 64 * 1024 then
    .ok { policy with maxOperations, maxBytes, budgeted }
  else .error (.headerPolicy .budgetExceeded)

def permits (policy : DynamicHeaderPolicy) : HeaderOperation → Bool
  | .set name value =>
    policy.allowedHeaders.contains name && !value.sensitive && !isProtectedHeader name
  | .remove name => policy.allowedHeaders.contains name && !isProtectedHeader name

def operationBytes : HeaderOperation → Nat
  | .set name value => Text.len name.value + value.value.text.length
  | .remove name => Text.len name.value

def checkOperations (policy : DynamicHeaderPolicy) (operations : List HeaderOperation) :
    Except LlmError (List HeaderOperation) := do
  reject (policy.maxOperations < operations.length) (.headerPolicy .budgetExceeded)
  reject (operations.all policy.permits = false) (.headerPolicy .invalidOperation)
  reject (policy.maxBytes < (operations.map operationBytes).sum) (.headerPolicy .budgetExceeded)
  .ok operations

def resolve (policy : DynamicHeaderPolicy) (source : DynamicHeaderSource)
    (context : DynamicHeaderContext) (lifecycle : RequestLifecycle)
    (cancelledAt : Option Instant) : Async LlmError (List HeaderOperation) := do
  let operations ← awaitWithLifecycle lifecycle cancelledAt
    (.timeout policy.timeout (.headerPolicy .timeout)
      (.mapError (fun () => .headerPolicy .callback) (source context)))
  Async.ofResult (policy.checkOperations operations)

end DynamicHeaderPolicy

end Philo
