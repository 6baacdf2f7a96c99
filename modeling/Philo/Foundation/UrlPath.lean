import Mathlib.Data.List.DropRight
import Mathlib.Data.List.Forall2
import Philo.Foundation.Machine

/-! Paths of URLs as the URL standard sets them on a URL with a special scheme: tabs and
newlines are removed, slashes and backslashes separate the segments, the characters of a
segment are percent-encoded, and dot segments are resolved. Texts are lists of characters. -/

namespace Philo

open List

namespace UrlPath

/-! ## Percent-encoding -/

def utf8 (text : List Char) : List UInt8 := text.flatMap String.utf8EncodeChar

def hexDigit (digit : Nat) : Char := Char.ofNat (if digit < 10 then 48 + digit else 55 + digit)

def hexValue? (character : Char) : Option Nat :=
  let code := character.toNat
  if 48 ≤ code ∧ code ≤ 57 then some (code - 48)
  else if 65 ≤ code ∧ code ≤ 70 then some (code - 55)
  else if 97 ≤ code ∧ code ≤ 102 then some (code - 87)
  else none

def percentEncode (byte : UInt8) : List Char :=
  ['%', hexDigit (byte.toNat / 16), hexDigit (byte.toNat % 16)]

/-- The bytes of a percent-encoded text. A percent sign that no two digits follow stands
for itself. -/
def percentDecode : List Char → List UInt8
  | [] => []
  | '%' :: high :: low :: rest =>
    match hexValue? high, hexValue? low with
    | some highValue, some lowValue => UInt8.ofNat (16 * highValue + lowValue) :: percentDecode rest
    | _, _ => String.utf8EncodeChar '%' ++ percentDecode (high :: low :: rest)
  | character :: rest => String.utf8EncodeChar character ++ percentDecode rest

def encodes (character : Char) : Bool :=
  let code := character.toNat
  code < 0x20 || 0x7E < code ||
    [0x20, 0x22, 0x23, 0x3C, 0x3E, 0x3F, 0x5E, 0x60, 0x7B, 0x7D].contains code

def encodeChar (character : Char) : List Char :=
  if encodes character then (String.utf8EncodeChar character).flatMap percentEncode
  else [character]

def encode (text : List Char) : List Char := text.flatMap encodeChar

variable {character : Char} {text segment : List Char} {placed segments : List (List Char)}

theorem utf8_injective {first second : List Char} (same : utf8 first = utf8 second) :
    first = second := by
  have sameBytes : first.utf8Encode = second.utf8Encode := by
    rw [utf8Encode, utf8Encode]
    exact congrArg toByteArray same
  have sameText : String.ofList first = String.ofList second := by
    rw [← String.toByteArray_inj, String.toByteArray_ofList, String.toByteArray_ofList, sameBytes]
  exact String.ofList_injective sameText

theorem percentDecode_cons (notPercent : character ≠ '%') (rest : List Char) :
    percentDecode (character :: rest) =
      String.utf8EncodeChar character ++ percentDecode rest := by
  rw [percentDecode.eq_def]
  split
  · contradiction
  · next isPercent => exact absurd (cons.inj isPercent).1 notPercent
  · next same =>
      cases same
      rfl

theorem hexValue_hexDigit : ∀ digit < 16, hexValue? (hexDigit digit) = some digit := by decide

theorem percentDecode_percentEncode (byte : UInt8) (rest : List Char) :
    percentDecode (percentEncode byte ++ rest) = byte :: percentDecode rest := by
  have bound : byte.toNat < 256 := byte.toNat_lt
  have high := hexValue_hexDigit (byte.toNat / 16) (by omega)
  have low := hexValue_hexDigit (byte.toNat % 16) (by omega)
  simp only [percentEncode, cons_append, nil_append, percentDecode, high, low]
  congr 1
  rw [Nat.div_add_mod]
  exact UInt8.ofNat_toNat

theorem percentDecode_percentEncode_all (bytes : List UInt8) (rest : List Char) :
    percentDecode (bytes.flatMap percentEncode ++ rest) = bytes ++ percentDecode rest := by
  induction bytes with
  | nil => rfl
  | cons byte bytes induction =>
    rw [flatMap_cons, append_assoc, percentDecode_percentEncode, induction]
    rfl

theorem percentDecode_encode (noPercent : '%' ∉ text) :
    percentDecode (encode text) = utf8 text := by
  induction text with
  | nil => rfl
  | cons character rest induction =>
    rw [mem_cons, not_or] at noPercent
    rw [encode, flatMap_cons, encodeChar]
    split
    · rw [percentDecode_percentEncode_all]
      exact congrArg _ (induction noPercent.2)
    · rw [singleton_append, percentDecode_cons (Ne.symm noPercent.1)]
      exact congrArg _ (induction noPercent.2)

/-! ## What encoding leaves behind -/

theorem encodes_percentEncode : ∀ byte : UInt8, ∀ character ∈ percentEncode byte,
      encodes character = false ∧ character ≠ '/' ∧ character ≠ '\\' := by
  have digits : ∀ digit < 16, encodes (hexDigit digit) = false ∧ hexDigit digit ≠ '/' ∧
      hexDigit digit ≠ '\\' := by decide
  intro byte character member
  have bound : byte.toNat < 256 := byte.toNat_lt
  simp only [percentEncode, mem_cons, not_mem_nil, or_false] at member
  rcases member with rfl | rfl | rfl
  · decide
  · exact digits _ (by omega)
  · exact digits _ (by omega)

theorem mem_encode (member : character ∈ encode text) :
    (character ∈ text ∧ encodes character = false) ∨
      ∃ byte : UInt8, character ∈ percentEncode byte := by
  rcases mem_flatMap.mp member with ⟨original, isOriginal, isEncoded⟩
  unfold encodeChar at isEncoded
  split at isEncoded
  · rcases mem_flatMap.mp isEncoded with ⟨byte, _, isByte⟩
    exact .inr ⟨byte, isByte⟩
  · next notEncoded =>
      cases mem_singleton.mp isEncoded
      exact .inl ⟨isOriginal, by simpa using notEncoded⟩

theorem encodes_of_mem_encode (member : character ∈ encode text) : encodes character = false := by
  rcases mem_encode member with ⟨_, notEncoded⟩ | ⟨byte, isByte⟩
  · exact notEncoded
  · exact (encodes_percentEncode byte character isByte).1

theorem encode_eq_self (plain : ∀ character ∈ text, encodes character = false) :
    encode text = text := by
  induction text with
  | nil => rfl
  | cons character rest induction =>
    rw [forall_mem_cons] at plain
    rw [encode, flatMap_cons, encodeChar, plain.1]
    exact congrArg _ (induction plain.2)

/-! ## ASCII bytes -/

theorem ascii_of_mem {byte : UInt8}
    (member : byte ∈ String.utf8EncodeChar character) (ascii : byte.toNat < 128) :
    String.utf8EncodeChar character = [byte] ∧ character = Char.ofNat byte.toNat := by
  have high : ∀ rest lead, 128 ≤ lead → rest + lead < 256 →
      128 ≤ (UInt8.ofNat (rest + lead)).toNat := by
    intro rest lead atLeast fits
    rw [UInt8.toNat_ofNat', Nat.mod_eq_of_lt fits]
    omega
  unfold String.utf8EncodeChar at member ⊢
  dsimp only at member ⊢
  split at member
  · next small =>
      rw [if_pos small]
      cases mem_singleton.mp member
      refine ⟨rfl, ?_⟩
      rw [UInt8.toNat_ofNat', Nat.mod_eq_of_lt (by omega)]
      exact (Char.ofNat_toNat character).symm
  · exfalso
    revert member
    split
    · simp only [mem_cons, not_mem_nil, or_false]
      rintro (rfl | rfl) <;>
        exact absurd ascii (Nat.not_lt.mpr (high _ _ (by decide) (by omega)))
    · split
      · simp only [mem_cons, not_mem_nil, or_false]
        rintro (rfl | rfl | rfl) <;>
          exact absurd ascii (Nat.not_lt.mpr (high _ _ (by decide) (by omega)))
      · simp only [mem_cons, not_mem_nil, or_false]
        rintro (rfl | rfl | rfl | rfl) <;>
          exact absurd ascii (Nat.not_lt.mpr (high _ _ (by decide) (by omega)))

theorem mem_utf8_backslash : 0x5C ∈ utf8 text ↔ '\\' ∈ text := by
  rw [utf8, mem_flatMap]
  constructor
  · rintro ⟨character, member, isByte⟩
    rw [(ascii_of_mem isByte (by decide)).2] at member
    exact member
  · intro member
    exact ⟨_, member, by decide⟩

/-! ## Dot segments -/

def readDot? : List Char → Option (List Char)
  | '.' :: rest => some rest
  | '%' :: '2' :: 'e' :: rest => some rest
  | '%' :: '2' :: 'E' :: rest => some rest
  | _ => none

def isSingleDot (segment : List Char) : Bool := readDot? segment = some []

def isDoubleDot (segment : List Char) : Bool := (readDot? segment).bind readDot? = some []

theorem percentDecode_eq_nil : percentDecode segment = [] ↔ segment = [] := by
  constructor
  · intro isEmpty
    rw [percentDecode.eq_def] at isEmpty
    split at isEmpty
    · rfl
    · split at isEmpty
      · cases isEmpty
      · exact absurd (append_eq_nil_iff.mp isEmpty).1 String.utf8EncodeChar_ne_nil
    · exact absurd (append_eq_nil_iff.mp isEmpty).1 String.utf8EncodeChar_ne_nil
  · rintro rfl
    rfl

theorem hexValue_spec {value : Nat} (isValue : hexValue? character = some value) :
    value < 16 ∧ (value = 2 → character.toNat = '2'.toNat) ∧
      (value = 14 → character.toNat = 'e'.toNat ∨ character.toNat = 'E'.toNat) := by
  have codes : '2'.toNat = 50 ∧ 'e'.toNat = 101 ∧ 'E'.toNat = 69 := by decide
  simp only [hexValue?] at isValue
  split_ifs at isValue <;> cases isValue <;> omega

theorem percentDecode_of_readDot {rest : List Char} (isDot : readDot? segment = some rest) :
    percentDecode segment = 0x2E :: percentDecode rest := by
  unfold readDot? at isDot
  split at isDot <;> cases isDot
  · exact percentDecode_cons (by decide) rest
  · rfl
  · rfl

theorem readDot_of_percentDecode {bytes : List UInt8}
    (starts : percentDecode segment = 0x2E :: bytes) :
    ∃ rest, readDot? segment = some rest ∧ percentDecode rest = bytes := by
  have head : ∀ {character rest}, String.utf8EncodeChar character ++ percentDecode rest =
      0x2E :: bytes → character = '.' ∧ percentDecode rest = bytes := by
    intro character rest joined
    cases encoded : String.utf8EncodeChar character with
    | nil => exact absurd encoded String.utf8EncodeChar_ne_nil
    | cons byte others =>
      rw [encoded] at joined
      rcases cons.inj joined with ⟨rfl, later⟩
      rcases ascii_of_mem (encoded ▸ mem_cons_self) (by decide) with ⟨single, isDot⟩
      rw [encoded] at single
      rw [(cons.inj single).2] at later
      exact ⟨isDot, later⟩
  rw [percentDecode.eq_def] at starts
  split at starts
  · cases starts
  · split at starts
    · next highValue lowValue isHigh isLow =>
        rcases cons.inj starts with ⟨isByte, rfl⟩
        rcases hexValue_spec isHigh with ⟨highBound, isTwo, _⟩
        rcases hexValue_spec isLow with ⟨lowBound, _, isE⟩
        have value : 16 * highValue + lowValue = 46 := by
          have same := congrArg UInt8.toNat isByte
          rw [UInt8.toNat_ofNat', Nat.mod_eq_of_lt (by omega)] at same
          exact same
        cases Char.toNat_inj.mp (isTwo (by omega))
        rcases isE (by omega) with isE | isE
        · cases Char.toNat_inj.mp isE
          exact ⟨_, rfl, rfl⟩
        · cases Char.toNat_inj.mp isE
          exact ⟨_, rfl, rfl⟩
    · exact absurd (head starts).1 (by decide)
  · next character rest _ =>
      rcases head starts with ⟨rfl, later⟩
      exact ⟨rest, rfl, later⟩

theorem percentDecode_eq_dot {bytes : List UInt8} : percentDecode segment = 0x2E :: bytes ↔
      ∃ rest, readDot? segment = some rest ∧ percentDecode rest = bytes := by
  refine ⟨readDot_of_percentDecode, ?_⟩
  rintro ⟨rest, isDot, rfl⟩
  exact percentDecode_of_readDot isDot

theorem isSingleDot_iff : isSingleDot segment = true ↔ percentDecode segment = [0x2E] := by
  rw [percentDecode_eq_dot, isSingleDot, decide_eq_true_eq]
  simp only [percentDecode_eq_nil]
  exact ⟨fun isDot => ⟨[], isDot, rfl⟩, fun ⟨_, isDot, isEmpty⟩ => isEmpty ▸ isDot⟩

theorem isDoubleDot_iff : isDoubleDot segment = true ↔ percentDecode segment = [0x2E, 0x2E] := by
  rw [percentDecode_eq_dot, isDoubleDot, decide_eq_true_eq, Option.bind_eq_some_iff]
  simp only [percentDecode_eq_dot, percentDecode_eq_nil]
  exact ⟨fun ⟨rest, isFirst, isSecond⟩ => ⟨rest, isFirst, [], isSecond, rfl⟩,
    fun ⟨rest, isFirst, _, isSecond, isEmpty⟩ => ⟨rest, isFirst, isEmpty ▸ isSecond⟩⟩

/-! ## Setting a path -/

def isTabOrNewline (character : Char) : Bool := ['\t', '\n', '\r'].contains character

def strip (text : List Char) : List Char := text.filter fun character => !isTabOrNewline character

def isSeparator (character : Char) : Bool := character == '/' || character == '\\'

def ending (rest : List (List Char)) : List (List Char) := if rest.isEmpty then [[]] else []

/-- One segment after the other. A double dot takes back the segment before it. -/
def place : List (List Char) → List (List Char) → List (List Char)
  | placed, [] => placed
  | placed, segment :: rest =>
    if isDoubleDot (encode segment) then place (placed.dropLast ++ ending rest) rest
    else if isSingleDot (encode segment) then place (placed ++ ending rest) rest
    else place (placed ++ [encode segment]) rest

def dropStart : List Char → List Char
  | [] => []
  | first :: rest => if isSeparator first then rest else first :: rest

def segmentsOf (text : List Char) : List (List Char) :=
  place [] ((dropStart (strip text)).splitOnP isSeparator)

def serialize (segments : List (List Char)) : List Char :=
  segments.flatMap fun segment => '/' :: segment

def split (path : List Char) : List (List Char) := (path.drop 1).splitOn '/'

/-! ## What may stand in a path that was set -/

structure Plain (segment : List Char) : Prop where
  characters : ∀ character ∈ segment, encodes character = false ∧ isSeparator character = false
  notSingle : isSingleDot segment = false
  notDouble : isDoubleDot segment = false

theorem plain_nil : Plain [] := ⟨nofun, by decide, by decide⟩

theorem Plain.encode (plain : Plain segment) : encode segment = segment :=
  encode_eq_self fun character member => (plain.characters character member).1

theorem isTabOrNewline_of_plain (plain : encodes character = false) :
    isTabOrNewline character = false := by
  rw [Bool.eq_false_iff]
  intro isTab
  have isOne : character = '\t' ∨ character = '\n' ∨ character = '\r' := by
    simpa [isTabOrNewline] using isTab
  rcases isOne with rfl | rfl | rfl <;> exact absurd plain (by decide)

theorem Plain.strip (plain : Plain segment) : strip segment = segment := by
  refine filter_eq_self.mpr fun character member => ?_
  rw [isTabOrNewline_of_plain (plain.characters character member).1]
  rfl

theorem plain_encode (noSeparator : ∀ character ∈ segment, isSeparator character = false)
    (notSingle : isSingleDot (UrlPath.encode segment) = false)
    (notDouble : isDoubleDot (UrlPath.encode segment) = false) :
    Plain (UrlPath.encode segment) := by
  refine ⟨fun character member => ⟨encodes_of_mem_encode member, ?_⟩, notSingle, notDouble⟩
  rcases mem_encode member with ⟨isThere, _⟩ | ⟨byte, isByte⟩
  · exact noSeparator character isThere
  · rcases encodes_percentEncode byte character isByte with ⟨_, notSlash, notBackslash⟩
    simp [isSeparator, notSlash, notBackslash]

theorem plain_ending (rest : List (List Char)) : ∀ segment ∈ ending rest, Plain segment := by
  intro segment member
  unfold ending at member
  split at member
  · cases mem_singleton.mp member
    exact plain_nil
  · cases member

theorem plain_place (plain : ∀ segment ∈ placed, Plain segment)
    (noSeparators : ∀ segment ∈ segments, ∀ character ∈ segment, isSeparator character = false) :
    ∀ segment ∈ place placed segments, Plain segment := by
  induction segments generalizing placed with
  | nil => exact plain
  | cons first rest induction =>
    rw [forall_mem_cons] at noSeparators
    have both : ∀ {before after : List (List Char)}, (∀ segment ∈ before, Plain segment) →
        (∀ segment ∈ after, Plain segment) → ∀ segment ∈ before ++ after, Plain segment :=
      fun isBefore isAfter segment member =>
        (mem_append.mp member).elim (isBefore segment) (isAfter segment)
    unfold place
    split
    · refine induction (both (fun segment member => ?_) (plain_ending rest)) noSeparators.2
      exact plain segment ((dropLast_sublist placed).subset member)
    · next notDouble =>
        split
        · exact induction (both plain (plain_ending rest)) noSeparators.2
        · next notSingle =>
            refine induction (both plain ?_) noSeparators.2
            intro segment member
            cases mem_singleton.mp member
            exact plain_encode noSeparators.1 (by simpa using notSingle) (by simpa using notDouble)

theorem place_of_not_dot (notDot : ∀ segment ∈ segments,
      isSingleDot (encode segment) = false ∧ isDoubleDot (encode segment) = false) :
    place placed segments = placed ++ segments.map encode := by
  induction segments generalizing placed with
  | nil => exact (append_nil _).symm
  | cons first rest induction =>
    rw [forall_mem_cons] at notDot
    simp only [place, notDot.1, Bool.false_eq_true, if_false]
    rw [induction notDot.2, append_assoc]
    rfl

theorem place_ne_nil (notEmpty : segments ≠ []) : place placed segments ≠ [] := by
  induction segments generalizing placed with
  | nil => exact absurd rfl notEmpty
  | cons first rest induction =>
    cases rest with
    | nil =>
      unfold place
      split_ifs <;> simp [place, ending]
    | cons next rest =>
      unfold place
      split_ifs <;> exact induction nofun

theorem countP_place (counts : List Char → Bool) (notEmpty : counts [] = false)
    (placed segments : List (List Char)) : (place placed segments).countP counts ≤
      placed.countP counts + (segments.map encode).countP counts := by
  induction segments generalizing placed with
  | nil => exact Nat.le_refl _
  | cons first rest induction =>
    have noEnding : (ending rest).countP counts = 0 := by
      unfold ending
      split <;> simp [notEmpty]
    have shorter : placed.dropLast.countP counts ≤ placed.countP counts :=
      (dropLast_sublist placed).countP_le
    rw [map_cons, countP_cons]
    unfold place
    split
    · have later := induction (placed.dropLast ++ ending rest)
      rw [countP_append, noEnding] at later
      omega
    · split
      · have later := induction (placed ++ ending rest)
        rw [countP_append, noEnding] at later
        omega
      · have later := induction (placed ++ [encode first])
        rw [countP_append, countP_singleton] at later
        omega

/-! ## Texts of paths -/

theorem mem_splitOnP {separates : Char → Bool} {piece : List Char}
    (isPiece : piece ∈ text.splitOnP separates) (member : character ∈ piece) :
    character ∈ text ∧ separates character = false := by
  induction text generalizing piece with
  | nil =>
    cases mem_singleton.mp isPiece
    cases member
  | cons first rest induction =>
    rw [splitOnP_cons_eq_if_modifyHead] at isPiece
    split at isPiece
    · rcases mem_cons.mp isPiece with rfl | later
      · cases member
      · exact (induction later member).imp_left (mem_cons_of_mem _)
    · next notSeparator =>
        rcases exists_cons_of_ne_nil (splitOnP_ne_nil separates rest) with
          ⟨head, tail, isSplit⟩
        rw [isSplit] at isPiece
        rcases mem_cons.mp isPiece with rfl | later
        · rcases mem_cons.mp member with rfl | inHead
          · exact ⟨mem_cons_self, by simpa using notSeparator⟩
          · exact (induction (isSplit ▸ mem_cons_self) inHead).imp_left
              (mem_cons_of_mem _)
        · exact (induction (isSplit ▸ mem_cons_of_mem _ later) member).imp_left
            (mem_cons_of_mem _)

theorem serialize_cons (first : List Char) (rest : List (List Char)) :
    serialize (first :: rest) = '/' :: first ++ serialize rest := rfl

theorem serialize_append (first second : List (List Char)) :
    serialize (first ++ second) = serialize first ++ serialize second := flatMap_append

theorem splitOnP_serialize (separates : Char → Bool) (slash : separates '/' = true)
    (first : List Char) (rest : List (List Char)) : (first ++ serialize rest).splitOnP separates =
      (first :: rest).flatMap fun segment => segment.splitOnP separates := by
  induction rest generalizing first with
  | nil => simp [serialize]
  | cons next rest induction =>
    rw [serialize_cons, cons_append, splitOnP_append_cons _ _ slash, induction]
    rfl

theorem split_serialize (notEmpty : segments ≠ [])
    (noSlash : ∀ segment ∈ segments, '/' ∉ segment) : split (serialize segments) = segments := by
  cases segments with
  | nil => exact absurd rfl notEmpty
  | cons first rest =>
    rw [split, serialize_cons, cons_append, drop_one, tail_cons,
      splitOn_eq_splitOnP, splitOnP_serialize _ (by decide)]
    have each : ∀ segment ∈ first :: rest, segment.splitOnP (· == '/') = [segment] := by
      intro segment member
      refine splitOnP_eq_singleton fun character isThere => ?_
      rw [beq_eq_false_iff_ne]
      rintro rfl
      exact noSlash segment member isThere
    rw [flatMap_congr each, flatMap_singleton']

theorem strip_append (first second : List Char) :
    strip (first ++ second) = strip first ++ strip second := filter_append ..

theorem strip_serialize (segments : List (List Char)) :
    strip (serialize segments) = serialize (segments.map strip) := by
  induction segments with
  | nil => rfl
  | cons first rest induction =>
    rw [serialize_cons, strip_append, induction, map_cons, serialize_cons]
    rfl

theorem segmentsOf_serialize (notEmpty : segments ≠ []) : segmentsOf (serialize segments) =
      place [] (segments.flatMap fun segment => (strip segment).splitOnP isSeparator) := by
  cases segments with
  | nil => exact absurd rfl notEmpty
  | cons first rest =>
    rw [segmentsOf, strip_serialize, map_cons, serialize_cons, cons_append]
    have start : dropStart ('/' :: (strip first ++ serialize (rest.map strip))) =
        strip first ++ serialize (rest.map strip) := rfl
    rw [start, splitOnP_serialize _ (by decide), ← map_cons, flatMap_map]

/-- Slashes at the end of a path belong to empty segments. -/
theorem trimEnd_serialize (noSlash : ∀ segment ∈ segments, '/' ∉ segment) :
    (serialize segments).rdropWhile (· == '/') =
      serialize (segments.rdropWhile isEmpty) := by
  induction segments using reverseRecOn with
  | nil => rfl
  | append_singleton segments last induction =>
    have before : ∀ segment ∈ segments, '/' ∉ segment := fun segment member =>
      noSlash segment (mem_append_left _ member)
    have single : serialize [last] = '/' :: last := by simp [serialize]
    rw [serialize_append, single]
    rcases eq_nil_or_concat last with rfl | ⟨front, character, rfl⟩
    · rw [rdropWhile_concat_pos _ _ _ (by decide),
        rdropWhile_concat_pos _ _ _ (by decide), induction before]
    · have notSlash : character ≠ '/' := by
        rintro rfl
        exact noSlash _ (mem_append_right _ (mem_singleton_self _)) (by simp)
      have whole : serialize segments ++ '/' :: front.concat character =
          (serialize segments ++ '/' :: front) ++ [character] := by simp
      rw [rdropWhile_concat_neg _ _ _ (by simp), serialize_append, single, whole,
        rdropWhile_concat_neg _ _ _ (by simpa using notSlash)]

end UrlPath

end Philo
