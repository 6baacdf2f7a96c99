import Philo.Domain.Json

/-! Local references are JSON Pointers in a fragment. -/

namespace Philo

def Json.at? : List String → Json → Option Json
  | [], value => some value
  | key :: keys, value => (value.get? key).bind (Json.at? keys)

namespace Pointer

def decodeChars : List Char → Option (List Char)
  | [] => some []
  | '~' :: '0' :: rest => (decodeChars rest).map ('~' :: ·)
  | '~' :: '1' :: rest => (decodeChars rest).map ('/' :: ·)
  | '~' :: _ => none
  | character :: rest => (decodeChars rest).map (character :: ·)

def encodeChar : Char → List Char
  | '~' => ['~', '0']
  | '/' => ['~', '1']
  | character => [character]

def encodeChars (segment : List Char) : List Char := segment.flatMap encodeChar

def encodeSegment (segment : String) : String := String.ofList (encodeChars segment.toList)

/-- The segments of a pointer that starts with `#/`, as they are written. -/
def rawSegments (reference : String) : Option (List (List Char)) :=
  (Text.stripStart reference "#/").map fun pointer => pointer.toList.splitOn '/'

def joinSegments (segments : List (List Char)) : List Char :=
  segments.flatMap fun segment => '/' :: segment

def canonicalizeLocalRef (reference : String) : Option String := do
  let raw ← rawSegments reference
  let decoded ← raw.mapM decodeChars
  return String.ofList ('#' :: joinSegments (decoded.map encodeChars))

def resolveLocalRef (root : Json) (reference : String) : Option Json := do
  let raw ← rawSegments reference
  let decoded ← raw.mapM decodeChars
  Json.at? (decoded.map String.ofList) root

/-! ## A canonical reference names the same value -/

theorem decodeChars_plain {character : Char} (plain : character ≠ '~') (rest : List Char) :
    decodeChars (character :: rest) = (decodeChars rest).map (character :: ·) := by
  rw [decodeChars.eq_def]
  split
  · next isNil => cases isNil
  · next same => exact absurd (List.cons.inj same).1 plain
  · next same => exact absurd (List.cons.inj same).1 plain
  · next same => exact absurd (List.cons.inj same).1 plain
  · next same =>
      rcases List.cons.inj same with ⟨rfl, rfl⟩
      rfl

theorem decodeChars_encodeChars (segment : List Char) :
    decodeChars (encodeChars segment) = some segment := by
  induction segment with
  | nil => rfl
  | cons character segment induction =>
    rw [encodeChars, List.flatMap_cons, ← encodeChars, encodeChar.eq_def]
    split
    · simp [decodeChars, induction]
    · simp [decodeChars, induction]
    · next notTilde _ =>
        rw [List.singleton_append, decodeChars_plain notTilde, induction, Option.map_some]

theorem slash_not_mem_encodeChars (segment : List Char) : '/' ∉ encodeChars segment := by
  rw [encodeChars, List.mem_flatMap]
  rintro ⟨character, _, isSlash⟩
  rw [encodeChar.eq_def] at isSlash
  split at isSlash
  · simp at isSlash
  · simp at isSlash
  · next notSlash => exact notSlash (List.mem_singleton.mp isSlash).symm

theorem joinSegments_cons (first : List Char) (rest : List (List Char)) :
    joinSegments (first :: rest) = '/' :: ['/'].intercalate (first :: rest) := by
  induction rest generalizing first with
  | nil => simp [joinSegments]
  | cons second rest induction =>
    rw [joinSegments, List.flatMap_cons, ← joinSegments, induction, List.intercalate_cons_cons]
    simp

theorem rawSegments_canonical {segments : List (List Char)} (notEmpty : segments ≠ [])
    (noSlash : ∀ segment ∈ segments, '/' ∉ segment) :
    rawSegments (String.ofList ('#' :: joinSegments segments)) = some segments := by
  cases segments with
  | nil => exact absurd rfl notEmpty
  | cons first rest =>
    rw [joinSegments_cons]
    have stripped : Text.stripStart (String.ofList
        ('#' :: '/' :: ['/'].intercalate (first :: rest))) "#/" =
          some (String.ofList (['/'].intercalate (first :: rest))) := by
      simp [Text.stripStart, Text.startsWith]
      rfl
    rw [rawSegments, stripped, Option.map_some, String.toList_ofList,
      List.splitOn_intercalate '/' noSlash notEmpty]

theorem mapM_decodeChars_encodeChars (segments : List (List Char)) :
    (segments.map encodeChars).mapM decodeChars = some segments := by
  induction segments with
  | nil => rfl
  | cons segment segments induction =>
    rw [List.map_cons, List.mapM_cons, decodeChars_encodeChars, induction]
    rfl

def decodedSegments (reference : String) : Option (List (List Char)) :=
  (rawSegments reference).bind fun raw => raw.mapM decodeChars

def canonicalRef (segments : List (List Char)) : String :=
  String.ofList ('#' :: joinSegments (segments.map encodeChars))

theorem canonicalizeLocalRef_eq (reference : String) :
    canonicalizeLocalRef reference = (decodedSegments reference).map canonicalRef := by
  simp [canonicalizeLocalRef, decodedSegments, canonicalRef, Option.map_eq_bind, Option.bind_assoc]

theorem resolveLocalRef_eq (root : Json) (reference : String) :
    resolveLocalRef root reference = (decodedSegments reference).bind fun segments =>
      Json.at? (segments.map String.ofList) root := by
  simp [resolveLocalRef, decodedSegments, Option.bind_assoc]

theorem decodedSegments_ne_nil {reference : String} {segments : List (List Char)}
    (isDecoded : decodedSegments reference = some segments) : segments ≠ [] := by
  rintro rfl
  rcases Option.bind_eq_some_iff.mp isDecoded with ⟨raw, isRaw, isDecoded⟩
  rcases Option.map_eq_some_iff.mp isRaw with ⟨pointer, _, rfl⟩
  have rawSome := List.splitOn_ne_nil '/' pointer.toList
  cases split : pointer.toList.splitOn '/' with
  | nil => exact rawSome split
  | cons first rest => simp [split, List.mapM_cons, Option.bind_eq_some_iff] at isDecoded

theorem decodedSegments_canonicalRef {segments : List (List Char)} (notEmpty : segments ≠ []) :
    decodedSegments (canonicalRef segments) = some segments := by
  have noSlash : ∀ segment ∈ segments.map encodeChars, '/' ∉ segment := by
    intro segment member
    rcases List.mem_map.mp member with ⟨plain, _, rfl⟩
    exact slash_not_mem_encodeChars plain
  rw [decodedSegments, canonicalRef, rawSegments_canonical (by simpa using notEmpty) noSlash,
    Option.bind_some, mapM_decodeChars_encodeChars]

theorem decodedSegments_canonical {reference canonical : String}
    (isCanonical : canonicalizeLocalRef reference = some canonical) :
    decodedSegments canonical = decodedSegments reference := by
  rw [canonicalizeLocalRef_eq, Option.map_eq_some_iff] at isCanonical
  rcases isCanonical with ⟨segments, isDecoded, rfl⟩
  rw [decodedSegments_canonicalRef (decodedSegments_ne_nil isDecoded), isDecoded]

theorem resolveLocalRef_canonical {root : Json} {reference canonical : String}
    (isCanonical : canonicalizeLocalRef reference = some canonical) :
    resolveLocalRef root canonical = resolveLocalRef root reference := by
  rw [resolveLocalRef_eq, resolveLocalRef_eq, decodedSegments_canonical isCanonical]

theorem resolveLocalRef_of_not_canonical {root : Json} {reference : String}
    (notCanonical : canonicalizeLocalRef reference = none) :
    resolveLocalRef root reference = none := by
  rw [canonicalizeLocalRef_eq, Option.map_eq_none_iff] at notCanonical
  rw [resolveLocalRef_eq, notCanonical, Option.bind_none]

/-- Encoding loses nothing, a reference has a canonical form exactly if its segments can be
decoded, and the canonical form stands for all the references with these segments. -/
theorem localRefs_canonical :
    (∀ segment : String, decodeChars (encodeSegment segment).toList = some segment.toList) ∧
      (∀ reference, (∃ canonical, canonicalizeLocalRef reference = some canonical) ↔
        ∃ segments, decodedSegments reference = some segments) ∧
      ∀ reference canonical, canonicalizeLocalRef reference = some canonical →
        canonicalizeLocalRef canonical = some canonical ∧
          (∀ root, resolveLocalRef root canonical = resolveLocalRef root reference) ∧
          ∀ other, canonicalizeLocalRef other = some canonical ↔
            decodedSegments other = decodedSegments reference := by
  refine ⟨fun segment => ?_, fun reference => ?_, fun reference canonical isCanonical => ?_⟩
  · rw [encodeSegment, String.toList_ofList, decodeChars_encodeChars]
  · simp only [canonicalizeLocalRef_eq, Option.map_eq_some_iff]
    constructor
    · rintro ⟨_, segments, isDecoded, _⟩
      exact ⟨segments, isDecoded⟩
    · rintro ⟨segments, isDecoded⟩
      exact ⟨_, segments, isDecoded, rfl⟩
  · have sameSegments : ∀ {other}, decodedSegments other = decodedSegments reference →
        canonicalizeLocalRef other = some canonical := by
      intro other same
      rw [canonicalizeLocalRef_eq, same, ← canonicalizeLocalRef_eq, isCanonical]
    refine ⟨sameSegments (decodedSegments_canonical isCanonical),
      fun root => resolveLocalRef_canonical isCanonical, fun other => ⟨?_, sameSegments⟩⟩
    intro otherCanonical
    rw [← decodedSegments_canonical otherCanonical, decodedSegments_canonical isCanonical]

/-- A segment with both escapes. -/
theorem escapedRef_canonical :
    (∃ canonical, canonicalizeLocalRef "#/$defs/a~1b~0" = some canonical ∧
      canonicalizeLocalRef canonical = some canonical) ∧
    decodedSegments "#/$defs/a~1b~0" = some ["$defs".toList, "a/b~".toList] ∧
      ¬ ∃ canonical, canonicalizeLocalRef "#/$defs/a~2" = some canonical := by
  have decoded : decodedSegments "#/$defs/a~1b~0" = some ["$defs".toList, "a/b~".toList] := by
    decide +kernel
  have refused : decodedSegments "#/$defs/a~2" = none := by decide +kernel
  rcases localRefs_canonical with ⟨_, succeeds, stands⟩
  rcases (succeeds _).mpr ⟨_, decoded⟩ with ⟨canonical, isCanonical⟩
  refine ⟨⟨canonical, isCanonical, (stands _ _ isCanonical).1⟩, decoded, ?_⟩
  rw [succeeds, refused]
  rintro ⟨_, ⟨⟩⟩

end Pointer

end Philo
