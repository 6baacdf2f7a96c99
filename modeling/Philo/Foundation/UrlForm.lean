import Philo.Foundation.UrlPath

/-! Queries of URLs as lists of pairs, in the format `application/x-www-form-urlencoded` of the
URL standard. -/

namespace Philo

open List UrlPath

namespace UrlForm

/-! ## Bytes that need not be UTF-8 -/

/-- The ranges of the bytes that go on after the first byte of a character. -/
def continuations (first : UInt8) : List (UInt8 × UInt8) :=
  if first < 0xC2 || 0xF4 < first then []
  else if first < 0xE0 then [(0x80, 0xBF)]
  else if first < 0xF0 then
    [(if first = 0xE0 then 0xA0 else 0x80, if first = 0xED then 0x9F else 0xBF), (0x80, 0xBF)]
  else
    [(if first = 0xF0 then 0x90 else 0x80, if first = 0xF4 then 0x8F else 0xBF), (0x80, 0xBF),
      (0x80, 0xBF)]

/-- How many bytes go on with the character that is broken off. -/
def brokenOff (first : UInt8) (rest : List UInt8) : Nat :=
  (((continuations first).zip rest).takeWhile fun (range, byte) =>
    range.1 ≤ byte && byte ≤ range.2).length

def decodeLossy : Nat → List UInt8 → List Char
  | 0, _ => []
  | _, [] => []
  | fuel + 1, first :: rest =>
    match (first :: rest).toByteArray.utf8DecodeChar? 0 with
    | some character =>
      character :: decodeLossy fuel ((first :: rest).drop character.utf8Size)
    | none => '�' :: decodeLossy fuel (rest.drop (brokenOff first rest))

def fromUtf8Lossy (bytes : List UInt8) : String :=
  String.ofList (decodeLossy bytes.length bytes)

variable {text : List Char} {fuel : Nat}

theorem decodeLossy_utf8_cons (character : Char) (rest : List Char) :
    decodeLossy (fuel + 1) (utf8 (character :: rest)) =
      character :: decodeLossy fuel (utf8 rest) := by
  have decoded : (utf8 (character :: rest)).toByteArray.utf8DecodeChar? 0 = some character :=
    List.utf8DecodeChar?_utf8Encode_cons
  have left : (utf8 (character :: rest)).drop character.utf8Size = utf8 rest := by
    rw [utf8, flatMap_cons, ← String.length_utf8EncodeChar, drop_left]
    rfl
  cases bytes : utf8 (character :: rest) with
  | nil =>
    rw [bytes] at decoded
    cases decoded
  | cons first others =>
    rw [bytes] at decoded left
    rw [decodeLossy, decoded]
    dsimp only
    rw [left]

theorem decodeLossy_utf8 (enough : (utf8 text).length ≤ fuel) :
    decodeLossy fuel (utf8 text) = text := by
  induction text generalizing fuel with
  | nil => cases fuel <;> rfl
  | cons character rest induction =>
    have positive := character.utf8Size_pos
    rw [utf8, flatMap_cons, length_append, String.length_utf8EncodeChar, ← utf8] at enough
    cases fuel with
    | zero => omega
    | succ fuel => rw [decodeLossy_utf8_cons, induction (by omega)]

theorem fromUtf8Lossy_utf8 (text : String) : fromUtf8Lossy (utf8 text.toList) = text := by
  rw [fromUtf8Lossy, decodeLossy_utf8 (Nat.le_refl _), String.ofList_toList]

example : fromUtf8Lossy [0xE2, 0x82, 0x41, 0xC0, 0x80, 0xED] = "�A���" := by decide +kernel

/-! ## Names and values -/

def isPlain (character : Char) : Bool :=
  character.isAlphanum || ['*', '-', '.', '_'].contains character

def writeChar (character : Char) : List Char :=
  if character = ' ' then ['+']
  else if isPlain character then [character]
  else (String.utf8EncodeChar character).flatMap percentEncode

def write (text : String) : List Char := text.toList.flatMap writeChar

def spaceOfPlus (character : Char) : Char := if character = '+' then ' ' else character

def read (text : List Char) : String := fromUtf8Lossy (percentDecode (text.map spaceOfPlus))

variable {character : Char}

theorem ne_of_isPlain {other : Char} (plain : isPlain character = true)
    (notPlain : isPlain other = false) : character ≠ other := by
  rintro rfl
  cases plain.symm.trans notPlain

theorem mem_percentEncode {byte : UInt8} (member : character ∈ percentEncode byte) :
    character = '%' ∨ isPlain character = true := by
  have digits : ∀ digit < 16, isPlain (UrlPath.hexDigit digit) = true := by decide
  have bound : byte.toNat < 256 := byte.toNat_lt
  have high := digits (byte.toNat / 16) (by omega)
  have low := digits (byte.toNat % 16) (by omega)
  simp only [percentEncode, mem_cons, not_mem_nil, or_false] at member
  rcases member with rfl | rfl | rfl
  · exact .inl rfl
  · exact .inr high
  · exact .inr low

theorem spaceOfPlus_percentEncode (bytes : List UInt8) :
    (bytes.flatMap percentEncode).map spaceOfPlus = bytes.flatMap percentEncode := by
  refine (map_congr_left fun character member => ?_).trans (map_id _)
  rcases mem_flatMap.mp member with ⟨byte, _, isByte⟩
  rcases mem_percentEncode isByte with rfl | plain
  · rfl
  · exact if_neg (ne_of_isPlain plain (by decide))

theorem percentDecode_writeChar (character : Char) (rest : List Char) :
    percentDecode ((writeChar character).map spaceOfPlus ++ rest) =
      String.utf8EncodeChar character ++ percentDecode rest := by
  unfold writeChar
  split
  · next isSpace =>
      rw [isSpace]
      exact percentDecode_cons (by decide) rest
  · split
    · next plain =>
        rw [map_singleton, spaceOfPlus, if_neg (ne_of_isPlain plain (by decide)),
          singleton_append, percentDecode_cons (ne_of_isPlain plain (by decide))]
    · rw [spaceOfPlus_percentEncode, percentDecode_percentEncode_all]

theorem read_write (text : String) : read (write text) = text := by
  have decoded : ∀ text : List Char,
      percentDecode ((text.flatMap writeChar).map spaceOfPlus) = utf8 text := by
    intro text
    induction text with
    | nil => rfl
    | cons character rest induction =>
      rw [flatMap_cons, map_append, percentDecode_writeChar, induction]
      rfl
  rw [read, write, decoded, fromUtf8Lossy_utf8]

theorem not_mem_write {separator : Char} (isSeparator : separator = '&' ∨ separator = '=')
    (text : String) : separator ∉ write text := by
  have notPlain : isPlain separator = false ∧ separator ≠ '+' ∧ separator ≠ '%' := by
    rcases isSeparator with rfl | rfl <;> decide
  intro member
  rcases mem_flatMap.mp member with ⟨character, _, isWritten⟩
  unfold writeChar at isWritten
  split at isWritten
  · exact notPlain.2.1 (mem_singleton.mp isWritten)
  · split at isWritten
    · next plain => exact ne_of_isPlain plain notPlain.1 (mem_singleton.mp isWritten).symm
    · rcases mem_flatMap.mp isWritten with ⟨byte, _, isByte⟩
      rcases mem_percentEncode isByte with isPercent | plain
      · exact notPlain.2.2 isPercent
      · exact ne_of_isPlain plain notPlain.1 rfl

/-! ## Pairs -/

def writePair (pair : String × String) : List Char := write pair.1 ++ '=' :: write pair.2

def writePairs (pairs : List (String × String)) : List Char :=
  ['&'].intercalate (pairs.map writePair)

/-- A piece without an equals sign is a name with an empty value. -/
def readPair (piece : List Char) : String × String :=
  (read (piece.takeWhile (· != '=')), read ((piece.dropWhile (· != '=')).drop 1))

def readPairs (text : List Char) : List (String × String) :=
  ((text.splitOn '&').filter fun piece => !piece.isEmpty).map readPair

theorem readPair_writePair (pair : String × String) : readPair (writePair pair) = pair := by
  have inName : ∀ character ∈ write pair.1, (character != '=') = true := by
    intro character member
    exact bne_iff_ne.mpr fun same => not_mem_write (.inr same) pair.1 member
  rw [readPair, writePair, takeWhile_append_of_pos inName, dropWhile_append_of_pos inName]
  simp [read_write]

theorem not_mem_writePair (pair : String × String) : '&' ∉ writePair pair := by
  rw [writePair, mem_append, mem_cons]
  rintro (inName | isEquals | inValue)
  · exact not_mem_write (.inl rfl) _ inName
  · exact absurd isEquals (by decide)
  · exact not_mem_write (.inl rfl) _ inValue

/-- What is written is read back, whatever characters the names and values have. -/
theorem readPairs_writePairs (pairs : List (String × String)) :
    readPairs (writePairs pairs) = pairs := by
  by_cases none : pairs = []
  · rw [none]
    rfl
  · have apart : ∀ piece ∈ pairs.map writePair, '&' ∉ piece := by
      intro piece member
      rcases mem_map.mp member with ⟨pair, _, rfl⟩
      exact not_mem_writePair pair
    have nonempty : ∀ piece ∈ pairs.map writePair, (!piece.isEmpty) = true := by
      intro piece member
      rcases mem_map.mp member with ⟨pair, _, rfl⟩
      simp [writePair]
    rw [readPairs, writePairs, splitOn_intercalate '&' apart (by simpa using none),
      filter_eq_self.mpr nonempty, map_map]
    exact map_id'' readPair_writePair pairs

end UrlForm

end Philo
