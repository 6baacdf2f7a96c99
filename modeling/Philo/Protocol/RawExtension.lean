import Philo.Domain.Schema.Depth

/-! Raw fields that a caller adds to the body of a request: what is accepted, and that
what is accepted leaves the fields of the SDK alone. -/

namespace Philo

open Result Std ToolSchema

/-! ## The tables of `protected.rs` -/

def protectedBodyKeyShapes : List String :=
  ["accept", "anthropic-beta", "anthropic-version", "api_key", "auth", "authorization", "beta",
    "content-length", "content-type", "header", "headers", "host", "version", "x-api-key"]

def anthropicMessagesProtectedBodyFields : List String :=
  ["max_tokens", "messages", "model", "output_config", "stream", "system", "temperature",
    "thinking", "tool_choice", "tools"]

def openAiChatProtectedBodyFields : List String :=
  ["max_completion_tokens", "max_tokens", "messages", "model", "n", "parallel_tool_calls",
    "reasoning_effort", "response_format", "stream", "stream_options", "temperature",
    "tool_choice", "tools"]

def isProtectedBodyField (protocolFields : List String) (key : String) : Bool :=
  let key := Text.toAsciiLowercase key
  protocolFields.contains key || protectedBodyKeyShapes.contains key

/-! ## Validation -/

structure RawBudget where
  keys : Nat
  arrayItems : Nat

def isRawKey (key : String) : Bool :=
  key ≠ "" && Text.len key ≤ 64 && Text.allAsciiAlphanumericOr ['_', '-'] key

section Validation

variable (protocolFields : List String) (field : String)

mutual

/-- `validate_raw_value`. The sums are only compared with their limits, which their
saturation does not change. -/
def validateRawValue : Json → Nat → RawBudget → Except ValidationError RawBudget
  | value, depth, budget => do
    reject (16 < depth) ⟨field, .outOfRange, "raw extension exceeds the depth limit"⟩
    match value with
    | .object entries =>
      reject (128 < budget.keys + entries.length)
        ⟨field, .outOfRange, "raw extension exceeds the key limit"⟩
      validateRawEntries entries depth { budget with keys := budget.keys + entries.length }
    | .array items =>
      reject (1024 < budget.arrayItems + items.length)
        ⟨field, .outOfRange, "raw extension exceeds the array-item limit"⟩
      validateRawItems items depth { budget with arrayItems := budget.arrayItems + items.length }
    | .string text =>
      reject (64 * 1024 < Text.len text)
        ⟨field, .outOfRange, "raw extension contains an oversized string"⟩
      .ok budget
    | _ => .ok budget

def validateRawEntries :
    List (String × Json) → Nat → RawBudget → Except ValidationError RawBudget
  | [], _, budget => .ok budget
  | (key, child) :: rest, depth, budget => do
    reject (isRawKey key = false)
      ⟨field, .invalidIdentifier, "raw extension contains a forbidden key shape"⟩
    reject (depth = 1 ∧ isProtectedBodyField protocolFields key = true)
      ⟨field, .conflict, "raw extension attempts to override an SDK-owned field"⟩
    let budget ← validateRawValue child (depth + 1) budget
    validateRawEntries rest depth budget

def validateRawItems : List Json → Nat → RawBudget → Except ValidationError RawBudget
  | [], _, budget => .ok budget
  | item :: rest, depth, budget => do
    let budget ← validateRawValue item (depth + 1) budget
    validateRawItems rest depth budget

end

end Validation

structure RawFields where
  fields : List (String × Json)
  encodedBytes : Nat

/-- `RawFields::parse`. Serializing a `Value` cannot fail. -/
def RawFields.parse (render : Json → String) (protocolFields : List String) (field : String)
    (value : Json) : Except ValidationError RawFields := do
  let fields ← okOr value.asObject?
    ⟨field, .conflict, "raw extension must be a top-level JSON object"⟩
  reject (fields = []) ⟨field, .empty, "raw extension object must not be empty"⟩
  let _ ← validateRawValue protocolFields field value 1 ⟨0, 0⟩
  reject (64 * 1024 < Text.len (render value))
    ⟨field, .outOfRange, "raw extension exceeds the encoded byte limit"⟩
  .ok ⟨fields, Text.len (render value)⟩

/-! ## What is accepted -/

namespace Json

def keys : Json → List String
  | object entries => entries.map Prod.fst
  | _ => []

def children : Json → List Json
  | object entries => entries.map Prod.snd
  | array items => items
  | _ => []

theorem jsonDepth_children (value : Json) : jsonDepth value = 1 + maxDepth value.children := by
  cases value with
  | object entries => rw [jsonDepth, maxEntryDepth_eq, children]
  | _ => rfl

theorem valuesIn_children (value : Json) :
    valuesIn value = value :: valuesInItems value.children := by
  cases value with
  | object entries => rw [valuesIn, valuesInEntries_eq, children]
  | _ => rfl

def IsRaw (value : Json) : Prop :=
  (∀ key ∈ value.keys, isRawKey key = true) ∧
    ∀ text, value = string text → Text.len text ≤ 64 * 1024

end Json

namespace RawBudget

def spend (budget : RawBudget) : Json → RawBudget
  | .object entries => { budget with keys := budget.keys + entries.length }
  | .array items => { budget with arrayItems := budget.arrayItems + items.length }
  | _ => budget

def Within (budget : RawBudget) : Prop := budget.keys ≤ 128 ∧ budget.arrayItems ≤ 1024

/-- The values are allowed one by one, and together they are within the budget. -/
def Covers (budget : RawBudget) (values : List Json) (next : RawBudget) : Prop :=
  (∀ value ∈ values, value.IsRaw) ∧ values.foldl spend budget = next ∧ next.Within

variable {budget next : RawBudget} {value : Json} {values first second : List Json}

theorem Covers.within (covers : budget.Covers values next) : budget.Within := by
  rcases covers with ⟨raw, rfl, within⟩
  clear raw
  induction values generalizing budget with
  | nil => exact within
  | cons value rest induction =>
    have later := induction within
    cases value <;> simp only [spend, Within] at later ⊢ <;> omega

theorem covers_cons : budget.Covers (value :: values) next ↔
    value.IsRaw ∧ (budget.spend value).Covers values next := by simp [Covers, and_assoc]

theorem covers_append : budget.Covers (first ++ second) next ↔
    ∃ middle, budget.Covers first middle ∧ middle.Covers second next := by
  induction first generalizing budget with
  | nil =>
    refine ⟨fun covers => ⟨budget, ⟨by simp, rfl, covers.within⟩, covers⟩, ?_⟩
    rintro ⟨_, ⟨_, rfl, _⟩, covers⟩
    exact covers
  | cons value rest induction => simp [covers_cons, induction, and_assoc]

theorem within_zero : Within ⟨0, 0⟩ := ⟨Nat.zero_le _, Nat.zero_le _⟩

end RawBudget

section Accepted

variable {protocolFields : List String} {field : String} {value : Json}

theorem validateRawEntries_iff {entries : List (String × Json)} {depth : Nat}
    {budget next : RawBudget} :
    validateRawEntries protocolFields field entries depth budget = .ok next ↔
      (∀ key ∈ entries.map Prod.fst, isRawKey key = true ∧
        (depth = 1 → isProtectedBodyField protocolFields key = false)) ∧
      validateRawItems protocolFields field (entries.map Prod.snd) depth budget = .ok next := by
  induction entries generalizing budget with
  | nil => simp [validateRawEntries, validateRawItems]
  | cons entry rest induction =>
    simp only [validateRawEntries, validateRawItems, induction, List.map_cons, List.forall_mem_cons,
      bind_eq_ok, reject_eq_ok, exists_const, not_and, Bool.not_eq_false, Bool.not_eq_true]
    grind

theorem validateRawValue_iff {depth : Nat} {budget next : RawBudget} (within : budget.Within) :
    validateRawValue protocolFields field value depth budget = .ok next ↔
      depth ≤ 16 ∧
      (depth = 1 → ∀ key ∈ value.keys, isProtectedBodyField protocolFields key = false) ∧
      value.IsRaw ∧ (budget.spend value).Within ∧
      validateRawItems protocolFields field value.children depth (budget.spend value) =
        .ok next := by
  rcases within with ⟨keys, arrayItems⟩
  cases value with
  | object entries =>
    simp only [validateRawValue, validateRawEntries_iff, RawBudget.spend, RawBudget.Within,
      Json.keys, Json.IsRaw, Json.children, bind_eq_ok, reject_eq_ok, exists_const, Nat.not_lt,
      arrayItems, reduceCtorEq, false_implies, implies_true, and_true]
    grind
  | array | null | bool | number | string =>
    simp [validateRawValue, RawBudget.spend, RawBudget.Within, Json.keys, Json.IsRaw,
      Json.children, validateRawItems, keys, arrayItems]

theorem validateRawItems_eq_ok {items : List Json} {depth : Nat} {budget next : RawBudget}
    (fits : depth ≤ 16) (within : budget.Within)
    (checked : ∀ item ∈ items, ∀ {budget next : RawBudget}, budget.Within →
      (validateRawValue protocolFields field item (depth + 1) budget = .ok next ↔
        depth + jsonDepth item ≤ 16 ∧ budget.Covers (valuesIn item) next)) :
    validateRawItems protocolFields field items depth budget = .ok next ↔
      depth + maxDepth items ≤ 16 ∧ budget.Covers (valuesInItems items) next := by
  induction items generalizing budget with
  | nil =>
    simp only [validateRawItems, maxDepth, valuesInItems, Except.ok.injEq]
    exact ⟨fun same => ⟨fits, by simp, same, same ▸ within⟩, fun covers => covers.2.2.1⟩
  | cons item rest induction =>
    rw [List.forall_mem_cons] at checked
    simp only [validateRawItems, bind_eq_ok, maxDepth, valuesInItems, RawBudget.covers_append]
    constructor
    · rintro ⟨middle, first, later⟩
      rw [checked.1 within] at first
      rw [induction first.2.2.2 checked.2] at later
      exact ⟨by omega, middle, first.2, later.2⟩
    · rintro ⟨deepest, middle, first, later⟩
      exact ⟨middle, (checked.1 within).mpr ⟨by omega, first⟩,
        (induction later.within checked.2).mpr ⟨by omega, later⟩⟩

/-- Whatever the order of the checks, it is the totals that count. -/
theorem validateRawValue_eq_ok (value : Json) {depth : Nat} {budget next : RawBudget}
    (within : budget.Within) :
    validateRawValue protocolFields field value (depth + 1) budget = .ok next ↔
      depth + jsonDepth value ≤ 16 ∧
      (depth = 0 → ∀ key ∈ value.keys, isProtectedBodyField protocolFields key = false) ∧
        budget.Covers (valuesIn value) next := by
  have checked (item : Json) (member : item ∈ value.children) {budget next : RawBudget}
      (within : budget.Within) :
      validateRawValue protocolFields field item (depth + 1 + 1) budget = .ok next ↔
        depth + 1 + jsonDepth item ≤ 16 ∧ budget.Covers (valuesIn item) next := by
    simp [validateRawValue_eq_ok item within]
  rw [validateRawValue_iff within, value.jsonDepth_children, value.valuesIn_children,
    RawBudget.covers_cons, Nat.add_eq_right]
  constructor
  · rintro ⟨fits, unprotected, raw, within, valid⟩
    rw [validateRawItems_eq_ok fits within checked] at valid
    exact ⟨by omega, unprotected, raw, valid.2⟩
  · rintro ⟨deepest, unprotected, raw, covers⟩
    exact ⟨by omega, unprotected, raw, covers.within,
      (validateRawItems_eq_ok (by omega) covers.within checked).mpr ⟨by omega, covers⟩⟩
termination_by jsonDepth value
decreasing_by
  have le := jsonDepth_le_maxDepth member
  rw [value.jsonDepth_children]
  omega

theorem RawFields.unprotected_of_parse {render : Json → String} {raw : RawFields}
    (parsed : RawFields.parse render protocolFields field value = .ok raw) :
    ∀ entry ∈ raw.fields, isProtectedBodyField protocolFields entry.1 = false := by
  cases value with
  | object entries =>
    simp only [RawFields.parse, Json.asObject?, okOr, ok_bind, bind_eq_ok, reject_eq_ok,
      exists_const, validateRawValue_eq_ok _ RawBudget.within_zero, Except.ok.injEq] at parsed
    rcases parsed with ⟨_, _, ⟨_, unprotected, _⟩, _, rfl⟩
    exact fun entry member => unprotected trivial entry.1 (List.mem_map_of_mem member)
  | null | bool | number | string | array => cases parsed

/-- The raw extensions that are accepted. -/
theorem RawFields.parse_accepts_iff {render : Json → String} {raw : RawFields} :
    RawFields.parse render protocolFields field value = .ok raw ↔ ∃ entries,
      value = .object entries ∧ entries ≠ [] ∧
      (∀ key ∈ value.keys, isProtectedBodyField protocolFields key = false) ∧
      jsonDepth value ≤ 16 ∧ (∃ total, RawBudget.Covers ⟨0, 0⟩ (valuesIn value) total) ∧
      Text.len (render value) ≤ 64 * 1024 ∧ raw = ⟨entries, Text.len (render value)⟩ := by
  cases value with
  | object entries =>
    simp only [RawFields.parse, Json.asObject?, okOr, ok_bind, bind_eq_ok, reject_eq_ok,
      exists_const, Except.ok.injEq, validateRawValue_eq_ok _ RawBudget.within_zero, Nat.not_lt]
    grind
  | null | bool | number | string | array => simp [RawFields.parse, Json.asObject?, okOr]

end Accepted

/-! ## The body of a request -/

inductive ProtocolKind where
  | openAiChatCompletions | anthropicMessages

namespace ProtocolKind

def protectedFields : ProtocolKind → List String
  | openAiChatCompletions => openAiChatProtectedBodyFields
  | anthropicMessages => anthropicMessagesProtectedBodyFields

def rawField : ProtocolKind → String
  | openAiChatCompletions => "protocol_options.openai_chat.raw"
  | anthropicMessages => "protocol_options.anthropic.raw"

def requestFields : ProtocolKind → List String
  | openAiChatCompletions => ["model", "messages", "stream", "stream_options", "n", "temperature",
      "max_completion_tokens", "max_tokens", "tools", "tool_choice", "parallel_tool_calls",
      "response_format", "reasoning_effort"]
  | anthropicMessages => ["model", "max_tokens", "messages", "system", "stream", "temperature",
      "tools", "tool_choice", "thinking", "output_config"]

def dangerousFromObject (kind : ProtocolKind) (render : Json → String) (value : Json) :
    Except ValidationError RawFields :=
  RawFields.parse render kind.protectedFields kind.rawField value

def addRawFields (kind : ProtocolKind) (object : TreeMap String Json)
    (fields : List (String × Json)) : Except LlmError (TreeMap String Json) :=
  fields.foldlM (fun object field => do
    reject (field.1 ∈ object) (.validation ⟨kind.rawField, .conflict,
      "raw extension conflicts with an SDK-owned request field"⟩)
    .ok (object.insert field.1 field.2)) object

variable {kind : ProtocolKind} {object wire : TreeMap String Json}
  {fields : List (String × Json)} {render : Json → String} {value : Json} {raw : RawFields}

theorem addRawFields_of_fresh (distinct : (fields.map Prod.fst).Nodup)
    (fresh : ∀ field ∈ fields, field.1 ∉ object) :
    ∃ body, kind.addRawFields object fields = .ok body ∧
      ∀ name, body[name]? = object[name]?.or (fields.lookup name) := by
  induction fields generalizing object with
  | nil => exact ⟨object, rfl, by simp⟩
  | cons field rest induction =>
    rw [List.map_cons, List.nodup_cons] at distinct
    rw [List.forall_mem_cons] at fresh
    have freshRest : ∀ other ∈ rest, other.1 ∉ object.insert field.1 field.2 := by
      intro other member inserted
      rcases TreeMap.mem_insert.mp inserted with same | there
      · exact distinct.1 (Std.compare_eq_iff_eq.mp same ▸ List.mem_map_of_mem member)
      · exact fresh.2 other member there
    rcases induction distinct.2 freshRest with ⟨body, added, lookups⟩
    refine ⟨body, by simpa [addRawFields, reject, fresh.1] using added, fun name => ?_⟩
    rw [lookups, TreeMap.getElem?_insert, List.lookup_cons]
    by_cases same : name = field.1
    · simp [same, TreeMap.getElem?_eq_none fresh.1]
    · simp [beq_false_of_ne same, Ne.symm same]

/-- Accepted raw fields never meet a field of the request, and they change none. -/
theorem addRawFields_onlyAdds (parsed : kind.dangerousFromObject render value = .ok raw)
    (distinct : (raw.fields.map Prod.fst).Nodup)
    (encoded : ∀ name ∈ wire, name ∈ kind.requestFields) :
    ∃ body, kind.addRawFields wire raw.fields = .ok body ∧
      ∀ name, body[name]? = wire[name]?.or (raw.fields.lookup name) := by
  refine addRawFields_of_fresh distinct fun field member there => ?_
  have isFree := RawFields.unprotected_of_parse parsed field member
  have covered : ∀ name ∈ kind.requestFields,
      isProtectedBodyField kind.protectedFields name = true := by
    cases kind <;> decide
  rw [covered _ (encoded _ there)] at isFree
  cases isFree

def routingFields : List (String × Json) :=
  [("provider", .object [("order", .array [.string "a"])]), ("seed", .number (.posInt 7))]

def routingWriter : Json → String :=
  Json.recordedWriter [(.object routingFields,
    "\x7b\"provider\":\x7b\"order\":[\"a\"]\x7d,\"seed\":7\x7d")]

def chatFields : List (String × Json) := [("model", .string "m"), ("n", .number (.posInt 1))]

theorem provider_added : ∃ body,
    openAiChatCompletions.addRawFields (.ofList chatFields) routingFields = .ok body ∧
      ∀ field ∈ chatFields ++ routingFields, body[field.1]? = some field.2 := by
  rcases @addRawFields_onlyAdds openAiChatCompletions (.ofList chatFields) routingWriter
    (.object routingFields) ⟨routingFields, 37⟩ rfl (by decide)
    (by simp [chatFields, requestFields]) with ⟨body, added, lookups⟩
  refine ⟨body, added, fun field member => ?_⟩
  rw [lookups]
  revert field
  decide +kernel

end ProtocolKind

end Philo
