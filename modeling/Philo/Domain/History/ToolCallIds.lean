import Philo.Domain.History.Diagnostics
import Philo.Foundation.Table

/-! Tool call ids on the wire: how normalization rewrites them, and why what it wrote
stays as it is. -/

namespace Philo

open Result Std

inductive SanitizeError where
  | collision
  | empty
  deriving DecidableEq

def fnv1a64 (bytes : List UInt8) : UInt64 :=
  bytes.foldl (fun hash byte => (hash ^^^ byte.toUInt64) * 0x100000001b3) 0xcbf29ce484222325

private def hexDigit (value : Nat) : Char := "0123456789abcdef".toList.getD (value % 16) '0'

def hex12 (value : Nat) : List Char :=
  (List.range 12).reverse.map fun place => hexDigit (value / 16 ^ place)

def isIdCharacter (character : Char) : Bool :=
  character.isAlphanum || character == '_' || character == '-'

def filterId (id : String) : String := String.ofList (id.toList.filter isIdCharacter)

/-- The start of the filtered id, or `call`, and a hash of the whole id. -/
def hashedId (original filtered : String) : String :=
  let candidate := String.ofList (filtered.toList.take 27)
  let start := if candidate = "" then "call" else candidate
  start ++ "_" ++ String.ofList
    (hex12 ((fnv1a64 (Text.bytes original)) &&& 0xffffffffffff).toNat)

/-- `sanitize_openai_tool_call_id`, with the occupied ids after it. -/
def sanitizeOpenAiToolCallId (original : ToolCallId) (occupied : TreeSet String) :
    Except SanitizeError (String × TreeSet String) :=
  let filtered := filterId original.value
  if (1 ≤ Text.len filtered ∧ Text.len filtered ≤ 40) ∧ filtered ∉ occupied then
    .ok (filtered, occupied.insert filtered)
  else
    let candidate := hashedId original.value filtered
    do
      reject (candidate ∈ occupied) .collision
      reject (candidate = "") .empty
      .ok (candidate, occupied.insert candidate)

private def callIdError (messageIndex partIndex : Nat) (reason : HistoryFailure)
    (message : String) : HistoryError :=
  ⟨s!"messages[{messageIndex}].content[{partIndex}].id", reason,
    some s!"messages[{messageIndex}].content[{partIndex}]", message⟩

def sanitizeFailure (messageIndex partIndex : Nat) : SanitizeError → HistoryError
  | .collision => callIdError messageIndex partIndex .toolCallIdCollision
      "sanitized tool call id collided with another call id"
  | .empty => callIdError messageIndex partIndex .invalidMessageOrder
      "tool call id became empty after sanitization"

/-- `normalize_tool_call`: the call under its normalized id, the mapping if the id
changed, and the occupied ids after it. -/
def normalizeToolCall (call : ToolCall) (messageIndex partIndex : Nat)
    (policy : ToolCallIdPolicy) (occupied : TreeSet String) :
    Except HistoryError (ToolCall × Option IdMapping × TreeSet String) :=
  match policy with
  | .preserve => do
    reject (call.id.value ∈ occupied) (callIdError messageIndex partIndex
      .duplicateToolCall "tool call id collides with an earlier normalized id")
    .ok (call, none, occupied.insert call.id.value)
  | .openAi => do
    let (sanitized, occupied) ← mapError (sanitizeFailure messageIndex partIndex)
      (sanitizeOpenAiToolCallId call.id occupied)
    let normalizedId ← mapError
      (fun _ => callIdError messageIndex partIndex .invalidMessageOrder
        "sanitized tool call id is invalid")
      (ToolCallId.new sanitized)
    .ok ({ call with id := normalizedId },
      if normalizedId.value = call.id.value then none else some ⟨call.id, normalizedId⟩,
      occupied)

/-! ## Legal ids -/

theorem len_ofList_cons (character : Char) (rest : List Char) :
    Text.len (String.ofList (character :: rest)) =
      character.utf8Size + Text.len (String.ofList rest) := by
  rw [String.ofList_cons]
  simp [Text.len, String.utf8ByteSize_append]

theorem utf8Size_of_isIdCharacter {character : Char} (legal : isIdCharacter character = true) :
    character.utf8Size = 1 := by
  rw [Char.utf8Size_eq_one_iff]
  delta isIdCharacter Char.isAlphanum Char.isAlpha Char.isUpper Char.isLower at legal
  simp only [Char.isDigit, Bool.or_eq_true, Bool.and_eq_true, decide_eq_true_eq,
    beq_iff_eq] at legal
  rcases legal with (((⟨_, high⟩ | ⟨_, high⟩) | ⟨_, high⟩) | rfl) | rfl
  · exact UInt32.le_trans high (by decide)
  · exact UInt32.le_trans high (by decide)
  · exact UInt32.le_trans high (by decide)
  · decide
  · decide

theorem len_of_legal {characters : List Char}
    (legal : ∀ character ∈ characters, isIdCharacter character = true) :
    Text.len (String.ofList characters) = characters.length := by
  induction characters with
  | nil => rfl
  | cons character rest induction =>
    rw [List.forall_mem_cons] at legal
    rw [len_ofList_cons, utf8Size_of_isIdCharacter legal.1, induction legal.2,
      List.length_cons, Nat.add_comm]

theorem hex12_legal (value : Nat) :
    ∀ character ∈ hex12 value, isIdCharacter character = true := by
  intro character member
  rcases List.mem_map.mp member with ⟨place, _, rfl⟩
  have digits : ∀ index < 16,
      isIdCharacter ("0123456789abcdef".toList.getD index '0') = true := by decide
  exact digits _ (Nat.mod_lt _ (by decide))

structure IsSanitized (id : String) : Prop where
  legal : ∀ character ∈ id.toList, isIdCharacter character = true
  notEmpty : 1 ≤ Text.len id
  short : Text.len id ≤ 40

theorem IsSanitized.filterId_eq {id : String} (sanitized : IsSanitized id) : filterId id = id := by
  rw [filterId, List.filter_eq_self.mpr sanitized.legal, String.ofList_toList]

theorem filterId_legal (id : String) :
    ∀ character ∈ (filterId id).toList, isIdCharacter character = true := by
  intro character member
  rw [filterId, String.toList_ofList] at member
  exact (List.mem_filter.mp member).2

theorem hashedId_sanitized {original filtered : String}
    (legal : ∀ character ∈ filtered.toList, isIdCharacter character = true) :
    IsSanitized (hashedId original filtered) := by
  have start : ∃ characters : List Char, (if String.ofList (filtered.toList.take 27) = ""
      then "call" else String.ofList (filtered.toList.take 27)) = String.ofList characters ∧
        (∀ character ∈ characters, isIdCharacter character = true) ∧
          characters.length ≤ 27 := by
    split
    · exact ⟨['c', 'a', 'l', 'l'], rfl, by simp [isIdCharacter], by decide⟩
    · refine ⟨filtered.toList.take 27, rfl, ?_, List.length_take_le ..⟩
      exact fun character member => legal character (List.mem_of_mem_take member)
  rcases start with ⟨characters, isStart, startLegal, startShort⟩
  have whole : hashedId original filtered = String.ofList (characters ++ '_' ::
      hex12 ((fnv1a64 (Text.bytes original)) &&& 0xffffffffffff).toNat) := by
    simp only [hashedId, isStart]
    rw [String.ofList_append, String.ofList_cons, String.append_assoc]
    rfl
  have allLegal : ∀ character ∈ characters ++ '_' ::
      hex12 ((fnv1a64 (Text.bytes original)) &&& 0xffffffffffff).toNat,
        isIdCharacter character = true := by
    intro character member
    rcases List.mem_append.mp member with inStart | inHash
    · exact startLegal character inStart
    · rcases List.mem_cons.mp inHash with rfl | inHex
      · decide
      · exact hex12_legal _ character inHex
  have size := len_of_legal allLegal
  rw [← whole, List.length_append, List.length_cons] at size
  have hexSize : ∀ value, (hex12 value).length = 12 := by simp [hex12]
  rw [hexSize] at size
  refine ⟨?_, by omega, by omega⟩
  rw [whole, String.toList_ofList]
  exact allLegal

/-! ## What rewriting gives -/

theorem sanitizeOpenAiToolCallId_eq_ok {original : ToolCallId} {id : String}
    {occupied occupied' : TreeSet String}
    (accepted : sanitizeOpenAiToolCallId original occupied = .ok (id, occupied')) :
    IsSanitized id ∧ id ∉ occupied ∧ occupied' = occupied.insert id := by
  unfold sanitizeOpenAiToolCallId at accepted
  simp only at accepted
  split at accepted
  · next fits =>
      cases accepted
      exact ⟨⟨filterId_legal _, fits.1.1, fits.1.2⟩, fits.2, rfl⟩
  · simp only [bind_eq_ok, reject_eq_ok, exists_const, Except.ok.injEq,
      Prod.mk.injEq] at accepted
    rcases accepted with ⟨free, _, rfl, rfl⟩
    exact ⟨hashedId_sanitized (filterId_legal _), free, rfl⟩

def IsNormalId (policy : ToolCallIdPolicy) (id : ToolCallId) : Prop :=
  match policy with
  | .preserve => True
  | .openAi => IsSanitized id.value

def mappingOf (original normalized : ToolCallId) : Option IdMapping :=
  if normalized = original then none else some ⟨original, normalized⟩

def givenId (policy : ToolCallIdPolicy) (occupied : TreeSet String) (id : ToolCallId) :
    Option String :=
  match policy with
  | .preserve => if id.value ∈ occupied then none else some id.value
  | .openAi => (sanitizeOpenAiToolCallId id occupied).toOption.map Prod.fst

section Given

variable {policy : ToolCallIdPolicy} {occupied occupied' : TreeSet String}

theorem givenId_openAi {original id : ToolCallId} :
    givenId .openAi occupied original = some id.value ↔
      sanitizeOpenAiToolCallId original occupied =
        .ok (id.value, occupied.insert id.value) := by
  cases sanitized : sanitizeOpenAiToolCallId original occupied with
  | error => simp [givenId, sanitized, Except.toOption]
  | ok result =>
    rcases result with ⟨found, after⟩
    rcases sanitizeOpenAiToolCallId_eq_ok sanitized with ⟨_, _, rfl⟩
    simp only [givenId, sanitized, Except.toOption, Option.map_some, Option.some.injEq,
      Except.ok.injEq, Prod.mk.injEq]
    exact ⟨fun same => ⟨same, same ▸ rfl⟩, And.left⟩

theorem givenId_eq_some {original id : ToolCallId}
    (given : givenId policy occupied original = some id.value) :
    IsNormalId policy id ∧ id.value ∉ occupied := by
  cases policy with
  | preserve =>
    simp only [givenId, Option.ite_none_left_eq_some] at given
    exact ⟨trivial, Option.some.inj given.2 ▸ given.1⟩
  | openAi =>
    rcases sanitizeOpenAiToolCallId_eq_ok (givenId_openAi.mp given) with ⟨legal, free, _⟩
    exact ⟨legal, free⟩

theorem givenId_fixed {id : ToolCallId} (normal : IsNormalId policy id)
    (free : id.value ∉ occupied) : givenId policy occupied id = some id.value := by
  cases policy with
  | preserve => exact if_neg free
  | openAi =>
    have sanitized : IsSanitized id.value := normal
    simp only [givenId_openAi, sanitizeOpenAiToolCallId, sanitized.filterId_eq]
    exact if_pos ⟨⟨sanitized.notEmpty, sanitized.short⟩, free⟩

theorem normalizeToolCall_eq_ok {call new : ToolCall} {messageIndex partIndex : Nat}
    {mapping : Option IdMapping} : normalizeToolCall call messageIndex partIndex policy occupied =
        .ok (new, mapping, occupied') ↔
      ∃ id : ToolCallId, givenId policy occupied call.id = some id.value ∧
        { call with id } = new ∧ mappingOf call.id id = mapping ∧
          occupied.insert id.value = occupied' := by
  cases policy with
  | preserve =>
    simp only [normalizeToolCall, bind_eq_ok, reject_eq_ok, exists_const, Except.ok.injEq,
      Prod.mk.injEq]
    constructor
    · rintro ⟨free, rfl, rfl, rfl⟩
      exact ⟨call.id, if_neg free, rfl, if_pos rfl, rfl⟩
    · rintro ⟨id, given, rfl, rfl, rfl⟩
      simp only [givenId, Option.ite_none_left_eq_some, Option.some.injEq] at given
      cases ToolCallId.ext given.2
      exact ⟨given.1, rfl, (if_pos rfl).symm, rfl⟩
  | openAi =>
    simp only [normalizeToolCall, bind_eq_ok, mapError_eq_ok, Prod.exists, Except.ok.injEq,
      Prod.mk.injEq, givenId_openAi]
    constructor
    · rintro ⟨_, _, sanitized, id, isId, rfl, rfl, rfl⟩
      cases ToolCallId.new_eq_ok isId
      rcases sanitizeOpenAiToolCallId_eq_ok sanitized with ⟨_, _, rfl⟩
      exact ⟨id, sanitized, rfl, by simp only [mappingOf, ToolCallId.ext_iff], rfl⟩
    · rintro ⟨id, sanitized, rfl, rfl, rfl⟩
      exact ⟨_, _, sanitized, id, id.new_value, rfl,
        by simp only [mappingOf, ToolCallId.ext_iff], rfl⟩

end Given

def spacedCall : ToolCall := ⟨⟨"call 1", by decide, by decide⟩,
  ⟨"weather", by decide, by decide, by decide⟩, ⟨"\x7b\x7d", .object []⟩⟩

end Philo
