import Philo.Foundation.UrlPath
import Philo.Provider.Endpoint.Audience
import Philo.Provider.Ids

/-! Restricted path templates and registered query operations. -/

namespace Philo

open Result

/-! ## Path templates -/

structure EndpointValues where
  productId : ProductId
  providerModelId : ProviderModelId
  deploymentId : Option DeploymentId

def EndpointValues.value (values : EndpointValues) : EndpointPathVariable → Except LlmError String
  | .product => .ok values.productId.value
  | .providerModel => .ok values.providerModelId.value
  | .deployment => do
    let id ← okOr values.deploymentId
      (configurationError "endpoint template requires a deployment id")
    .ok id.value

inductive PathSegment where
  | literal (value : String)
  | ofVariable (name : EndpointPathVariable)
  deriving DecidableEq

structure EndpointTemplate where
  segments : List PathSegment
  deriving DecidableEq

def encodePathByte (byte : UInt8) : List Char :=
  let character := Char.ofNat byte.toNat
  if character.isAlphanum || ['-', '_', '~'].contains character then [character]
  else UrlPath.percentEncode byte

def encodePathSegment (value : String) : String :=
  String.ofList ((value.toList.flatMap String.utf8EncodeChar).flatMap encodePathByte)

namespace EndpointTemplate

def parseSegment (segment : String) : Except LlmError PathSegment := do
  reject (segment = "" ∨ segment = "." ∨ segment = "..")
    (configurationError "endpoint template has an unsafe path segment")
  match segment with
  | "\x7bproduct\x7d" => .ok (.ofVariable .product)
  | "\x7bprovider_model\x7d" => .ok (.ofVariable .providerModel)
  | "\x7bdeployment\x7d" => .ok (.ofVariable .deployment)
  | literal => do
    reject (literal.toList.any ['\x7b', '\x7d', '%'].contains = true)
      (configurationError "endpoint template contains an unknown or encoded segment")
    .ok (.literal literal)

def parse (value : String) : Except LlmError EndpointTemplate := do
  reject (value = "") (configurationError "endpoint template must not be empty")
  reject (value.toList.any ['?', '#'].contains = true)
    (configurationError "endpoint template must not contain query or fragment")
  let path := Text.trimMatches value '/'
  reject (path = "") (configurationError "endpoint template must contain a path")
  let segments ← (path.toList.splitOn '/').mapM fun segment => parseSegment (String.ofList segment)
  .ok ⟨segments⟩

/-- The path of the base URL, without slashes at its end but with one at its start. -/
def renderStart (basePath : String) : String :=
  let path := Text.trimEndMatches basePath '/'
  if path = "" then "/" else if Text.startsWith path "/" then path else "/" ++ path

def renderSegment (values : Option EndpointValues)
    (rendered : String × List EndpointPathVariable) (segment : PathSegment) :
    Except LlmError (String × List EndpointPathVariable) :=
  let path := if Text.endsWith rendered.1 "/" then rendered.1 else rendered.1 ++ "/"
  match segment with
  | .literal value => .ok (path ++ value, rendered.2)
  | .ofVariable name => do
    let values ← okOr values
      (configurationError "endpoint template requires catalog mapping values")
    let value ← values.value name
    .ok (path ++ encodePathSegment value, rendered.2 ++ [name])

def render (template : EndpointTemplate) (basePath : String) (values : Option EndpointValues) :
    Except LlmError (String × List EndpointPathVariable) :=
  template.segments.foldlM (renderSegment values) (renderStart basePath, [])

def requiresValues (template : EndpointTemplate) : Bool :=
  template.segments.any fun
    | .literal _ => false
    | .ofVariable _ => true

end EndpointTemplate

/-! ## Query operations -/

inductive QueryMergeRule where
  | rejectExisting
  | override
  deriving DecidableEq

inductive QueryOperation where
  | set (value : String) (merge : QueryMergeRule) (source : EndpointQuerySource)
  | remove (source : EndpointQuerySource)
  deriving DecidableEq

structure UrlLibrary where
  /-- `Url::set_path`. -/
  setPath : Url → String → Url
  /-- `Url::query_pairs`. -/
  queryPairs : Url → List (String × String)
  /-- `Url::set_query(None)`, then `append_pair` for each pair if there are any. -/
  withQueryPairs : Url → List (String × String) → Url

structure EndpointQuery where
  operations : Std.TreeMap String QueryOperation

def sensitiveQueryNames : List String :=
  ["key", "token", "secret", "credential", "signature", "authorization"]

def validateQueryName (name : String) : Except LlmError String := do
  let canonical := Text.toAsciiLowercase name
  reject (name = "" ∨ 64 < Text.len name ∨
      Text.allAsciiAlphanumericOr ['-', '_', '.', '~'] name = false)
    (configurationError "invalid endpoint query name")
  reject (sensitiveQueryNames.any (Text.contains canonical) = true)
    (configurationError "sensitive endpoint query name is forbidden")
  .ok canonical

def validateQueryValue (value : String) : Except LlmError String := do
  reject (value = "" ∨ 256 < Text.len value ∨
      value.toList.any (fun character => character.toNat < 32 || character.toNat == 127) = true)
    (configurationError "invalid endpoint query value")
  .ok value

namespace EndpointQuery

def new : EndpointQuery := ⟨∅⟩

def register (query : EndpointQuery) (name : String) (operation : QueryOperation) :
    Except LlmError EndpointQuery := do
  reject (query.operations.contains name = true)
    (configurationError "duplicate endpoint query operation")
  .ok ⟨query.operations.insert name operation⟩

def withSet (query : EndpointQuery) (name value : String) (merge : QueryMergeRule)
    (source : EndpointQuerySource) : Except LlmError EndpointQuery := do
  let name ← validateQueryName name
  let value ← validateQueryValue value
  query.register name (.set value merge source)

def withRemove (query : EndpointQuery) (name : String) (source : EndpointQuerySource) :
    Except LlmError EndpointQuery := do
  let name ← validateQueryName name
  query.register name (.remove source)

def withApiVersion (query : EndpointQuery) (value : String) (source : EndpointQuerySource) :
    Except LlmError EndpointQuery :=
  query.withSet "api-version" value .override source

/-- The first loop of `apply`: the pairs that the URL has. Its `seen` set holds the
names of the pairs collected so far. -/
def collectPair (query : EndpointQuery) (existing : Std.TreeMap String String)
    (pair : String × String) : Except LlmError (Std.TreeMap String String) := do
  let _ ← validateQueryName pair.1
  reject (existing.contains pair.1 = true)
    (configurationError "duplicate base endpoint query key")
  reject (query.operations.contains pair.1 = false)
    (configurationError "base endpoint query key is not registered")
  .ok (existing.insert pair.1 pair.2)

def applyOperation (state : Std.TreeMap String String × List EndpointQueryDiagnostic)
    (entry : String × QueryOperation) :
    Except LlmError (Std.TreeMap String String × List EndpointQueryDiagnostic) :=
  match entry.2 with
  | .set value merge source => do
    reject (state.1.contains entry.1 = true ∧ merge = .rejectExisting)
      (configurationError "endpoint query override is forbidden")
    .ok (state.1.insert entry.1 value, state.2 ++ [⟨entry.1, .set, source⟩])
  | .remove source => .ok (state.1.erase entry.1, state.2 ++ [⟨entry.1, .remove, source⟩])

def apply (library : UrlLibrary) (query : EndpointQuery) (url : Url) :
    Except LlmError (Url × List EndpointQueryDiagnostic) := do
  let existing ← (library.queryPairs url).foldlM query.collectPair ∅
  let (pairs, diagnostics) ← query.operations.toList.foldlM applyOperation (existing, [])
  .ok (library.withQueryPairs url pairs.toList, diagnostics)

end EndpointQuery

end Philo
