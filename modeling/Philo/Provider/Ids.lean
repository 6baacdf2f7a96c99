import Philo.Domain.LlmError

/-! Identifiers of catalogs and of credential cache partitions. The `catalog_id!`
and `private_id!` macros check the same rule and differ in the field they name. -/

namespace Philo

@[ext] structure BoundedId (field : String) where
  value : String
  notEmpty : value ≠ ""
  trimmed : Text.trim value = value
  bounded : Text.len value ≤ 256

instance {field : String} : DecidableEq (BoundedId field) := fun _ _ =>
  decidable_of_iff _ BoundedId.ext_iff.symm

def BoundedId.new (field value : String) : Except ValidationError (BoundedId field) :=
  if empty : value = "" then .error ⟨field, .empty, "identifier must not be empty"⟩
  else if trimmed : Text.trim value = value then
    if bounded : Text.len value ≤ 256 then .ok ⟨value, empty, trimmed, bounded⟩
    else .error ⟨field, .outOfRange, "identifier exceeds 256 bytes"⟩
  else
    .error ⟨field, .boundaryWhitespace, "identifier must not have boundary whitespace"⟩

abbrev ProductId := BoundedId "product_id"
abbrev ProviderModelId := BoundedId "provider_model_id"
abbrev DeploymentId := BoundedId "deployment_id"
abbrev WireModelValue := BoundedId "wire_model_value"
abbrev TenantId := BoundedId "tenant_id"
abbrev CredentialIdentity := BoundedId "credential_identity"

/-! ## The chat product of OpenAI -/

def openAiId : ProviderId := ⟨"openai", by decide, by decide⟩
def openAiChatId : ProductId := ⟨"chat", by decide, by decide, by decide⟩
def chatCompletionsId : ProtocolId := ⟨"openai-chat-completions", by decide, by decide⟩

end Philo
