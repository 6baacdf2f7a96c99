import Philo.Transport.SseDelivery

/-! Server-Sent Events as a function of the whole input: the lines of the body, the fields
that they hold, and the events that the empty lines among them complete. The decoder is
proved to yield the same items. -/

namespace Philo

open SseDecoder

namespace SseReference

/-! ## Lines and fields -/

structure Lines where
  ended : List (List UInt8)
  tail : List UInt8
  deriving DecidableEq

namespace Lines

def startWith (start : List UInt8) : Lines → Lines
  | ⟨[], tail⟩ => ⟨[], start ++ tail⟩
  | ⟨line :: lines, tail⟩ => ⟨(start ++ line) :: lines, tail⟩

@[simp] theorem startWith_nil (lines : Lines) : lines.startWith [] = lines := by
  rcases lines with ⟨_ | _, _⟩ <;> rfl

theorem startWith_startWith (first second : List UInt8) (lines : Lines) :
    (lines.startWith second).startWith first = lines.startWith (first ++ second) := by
  rcases lines with ⟨_ | _, _⟩ <;> simp [startWith]

def afterEmpty (lines : Lines) : Lines := ⟨[] :: lines.ended, lines.tail⟩

def ofInput : List UInt8 → Lines
  | [] => ⟨[], []⟩
  | 13 :: 10 :: rest => (ofInput rest).afterEmpty
  | 13 :: rest => (ofInput rest).afterEmpty
  | 10 :: rest => (ofInput rest).afterEmpty
  | byte :: rest => (ofInput rest).startWith [byte]

end Lines

structure Field where
  name : String
  value : String
  deriving DecidableEq

namespace Field

/-- What stands before the first colon, and what stands after it. -/
def cut : List Char → List Char × List Char
  | [] => ([], [])
  | ':' :: after => ([], after)
  | other :: rest => (other :: (cut rest).1, (cut rest).2)

def withoutSpace : List Char → List Char
  | ' ' :: rest => rest
  | chars => chars

/-- A name, a colon, and a value with at most one space before it. Without a colon, all of
the line is the name. -/
def ofLine (line : String) : Field :=
  ⟨.ofList (cut line.toList).1, .ofList (withoutSpace (cut line.toList).2)⟩

def data? (field : Field) : Option String := if field.name = "data" then some field.value else none

def event? (field : Field) : Option String :=
  if field.name = "event" then some field.value else none

def id? (field : Field) : Option String :=
  if field.name = "id" ∧ Char.ofNat 0 ∉ field.value.toList then some field.value else none

/-- The number after one more decimal digit. -/
def readDigit (number : Nat) (digit : Char) : Option Nat :=
  if '0' ≤ digit ∧ digit ≤ '9' then some (10 * number + (digit.toNat - 48)) else none

def number? (digits : List Char) : Option UInt64 :=
  if digits = [] then none
  else ((digits.foldlM readDigit 0).filter (· < 2 ^ 64)).map .ofNat

def retry? (field : Field) : Option UInt64 :=
  if field.name = "retry" then number? field.value.toList else none

end Field

def lastOf {α : Type} (read : Field → Option α) (fields : List Field) : Option α :=
  (fields.filterMap read).getLast?

/-! ## Reading line by line -/

/-- What the lines so far have left: the fields up to the last empty line and those after
it, the bytes after it, and the number of lines. -/
structure Context where
  earlier : List Field
  fields : List Field
  bytes : Nat
  lines : Nat

namespace Context

def start : Context := ⟨[], [], 0, 0⟩

def event? (context : Context) : Option SseFrame :=
  if context.fields.filterMap Field.data? = [] then none
  else some
    { data := "\n".intercalate (context.fields.filterMap Field.data?)
      eventType := lastOf Field.event? context.fields
      id := lastOf Field.id? (context.earlier ++ context.fields)
      retryMillis := lastOf Field.retry? context.fields }

variable (config : SseConfig) (context : Context)

def number : Nat := saturatingAdd context.lines 1

/-- The limit that a line passes, with `ending` bytes to end it: that of the event if the
line reaches it first, or its own. -/
def overrun (line : List UInt8) (ending : Nat) : Option SseError :=
  if config.maxEventBytes < saturatingAdd context.bytes (line.length + ending) ∧
      config.maxEventBytes - context.bytes ≤ config.maxLineBytes then
    some (.limitExceeded .eventBytes config.maxEventBytes (config.maxEventBytes + 1)
      context.number)
  else if config.maxLineBytes < line.length then
    some (.limitExceeded .lineBytes config.maxLineBytes (config.maxLineBytes + 1)
      context.number)
  else none

/-- The context after a line of this many bytes, its end included, and its field if it
has one. -/
def next (size : Nat) (field : Option Field) : Context :=
  { context with
    fields := context.fields ++ field.toList
    bytes := saturatingAdd context.bytes size
    lines := context.number }

def nextEvent : Context := ⟨context.earlier ++ context.fields, [], 0, context.number⟩

def readText (line : List UInt8) (ending : Nat) : Except SseError Context :=
  match Text.fromUtf8 line with
  | none => .error (.invalidUtf8 context.number)
  | some text =>
    if Text.startsWith text ":" then .ok (context.next (line.length + ending) none)
    else
      let next := context.next (line.length + ending) (some (.ofLine text))
      let count := min next.fields.length (2 ^ 64 - 1)
      match config.maxFieldsPerEvent.filter (· < count) with
      | some limit => .error (.limitExceeded .fields limit count context.number)
      | none => .ok next

def readLine (line : List UInt8) (ending : Nat) : Except SseError (Option SseFrame × Context) :=
  match context.overrun config line ending with
  | some error => .error error
  | none =>
    if line = [] then .ok (context.event?, context.nextEvent)
    else (context.readText config line ending).map (none, ·)

/-- The end of the input: a last line that nothing ends, unless it is empty, and the event
that is left. -/
def readTail (tail : List UInt8) : List SseItem :=
  if tail = [] then context.event?.toList.map .ok
  else
    match context.readLine config tail 0 with
    | .error error => [.error error]
    | .ok (_, next) => next.event?.toList.map .ok

end Context

open Context

def readLines (config : SseConfig) (context : Context) (tail : List UInt8) :
    List (List UInt8) → List SseItem
  | [] => context.readTail config tail
  | line :: rest =>
    match context.readLine config line 1 with
    | .error error => [.error error]
    | .ok (event, next) => event.toList.map .ok ++ readLines config next tail rest

def items (config : SseConfig) (input : List UInt8) : List SseItem :=
  let lines := Lines.ofInput input
  readLines config .start lines.tail lines.ended

/-! ## The decoder between two bytes -/

theorem cut_eq (chars : List Char) : Field.cut chars =
    (chars.takeWhile (· != ':'), (chars.dropWhile (· != ':')).drop 1) := by
  fun_induction Field.cut chars with
  | case1 => rfl
  | case2 after => simp
  | case3 other rest different induction =>
    have passes : (other != ':') = true := by simpa using different
    simp [induction, passes]

theorem withoutSpace_eq (chars : List Char) : String.ofList (Field.withoutSpace chars) =
    (Text.stripStart (String.ofList chars) " ").getD (String.ofList chars) := by
  fun_cases Field.withoutSpace chars with
  | case1 rest =>
    have spaced : Text.stripStart (String.ofList (' ' :: rest)) " " = some (String.ofList rest) :=
      Text.stripStart_eq_some.mpr (String.toList_inj.mp (by simp))
    rw [spaced, Option.getD_some]
  | case2 _ different =>
    have unspaced : Text.stripStart (String.ofList chars) " " = none := by
      apply Option.eq_none_iff_forall_ne_some.mpr
      intro rest stripped
      have spaced := congrArg String.toList (Text.stripStart_eq_some.mp stripped)
      exact different rest.toList (by simpa using spaced.symm)
    rw [unspaced, Option.getD_none]

/-- The decoder cuts a line into the field that the line stands for. -/
theorem splitField_eq_ofLine (line : String) :
    splitField line = ((Field.ofLine line).name, (Field.ofLine line).value) := by
  simp only [splitField, Field.ofLine, withoutSpace_eq, cut_eq, Text.splitOnce]
  cases rest : line.toList.dropWhile (· != ':') with
  | nil =>
    have whole : line.toList.takeWhile (· != ':') = line.toList := by
      simpa [rest] using List.takeWhile_append_dropWhile (p := (· != ':')) (l := line.toList)
    simp [whole]
  | cons colon after => simp

theorem foldlM_readDigit (digits : List Char) (number : Nat) :
    digits.foldlM Field.readDigit number = if digits.all Char.isDigit then
      some (digits.foldl (fun value digit => 10 * value + (digit.toNat - 48)) number)
      else none := by
  induction digits generalizing number with
  | nil => rfl
  | cons digit rest induction =>
    have isDigit : digit.isDigit = true ↔ '0' ≤ digit ∧ digit ≤ '9' := by
      rw [Char.isDigit, Bool.and_eq_true, decide_eq_true_iff, decide_eq_true_iff]
      rfl
    rw [List.foldlM_cons, Field.readDigit, List.all_cons, List.foldl_cons]
    by_cases fits : '0' ≤ digit ∧ digit ≤ '9'
    · rw [if_pos fits, isDigit.mpr fits, Bool.true_and]
      exact induction _
    · rw [if_neg fits, Bool.eq_false_iff.mpr (mt isDigit.mp fits), Bool.false_and]
      rfl

theorem ofDigits_eq_foldl (digits : List Char) :
    Nat.ofDigits 10 (digits.map fun digit => digit.toNat - '0'.toNat).reverse =
      digits.foldl (fun value digit => 10 * value + (digit.toNat - 48)) 0 := by
  rw [Nat.ofDigits_eq_foldr, List.foldr_reverse, List.foldl_map]
  congr 1
  funext value digit
  exact Nat.add_comm _ _

theorem parseRetry_eq_number (value : String) : parseRetry value = Field.number? value.toList := by
  rw [parseRetry, ofDigits_eq_foldl]
  cases digits : value.toList with
  | nil =>
    have empty : value = "" := String.toList_inj.mp digits
    simp [empty, Field.number?]
  | cons first rest =>
    have nonempty : value.isEmpty = false := by
      rw [Bool.eq_false_iff, ne_eq, String.isEmpty_iff]
      rintro rfl
      cases digits
    rw [Field.number?, if_neg (List.cons_ne_nil first rest), foldlM_readDigit, nonempty,
      Bool.false_or]
    generalize List.foldl _ 0 (first :: rest) = number
    cases (first :: rest).all Char.isDigit with
    | false => rfl
    | true => split_ifs <;> simp_all [Option.filter_some]

/-- The last field that says something about `read` wins. -/
theorem lastOf_concat {α : Type} (read : Field → Option α) (fields : List Field) (field : Field) :
    lastOf read (fields ++ [field]) = (read field).or (lastOf read fields) := by
  simp only [lastOf, List.filterMap_append]
  cases found : read field <;> simp [found]

/-- The decoder after the lines of `context` and the bytes `line` of the next one. -/
def decoderAt (context : Context) (line : List UInt8) : SseDecoder where
  line := line
  dataLines := context.fields.filterMap Field.data?
  eventType := lastOf Field.event? context.fields
  lastEventId := lastOf Field.id? (context.earlier ++ context.fields)
  retryMillis := lastOf Field.retry? context.fields
  hasData := context.fields.filterMap Field.data? ≠ []
  sawCr := false
  eventBytes := saturatingAdd context.bytes line.length
  fieldCount := min context.fields.length (2 ^ 64 - 1)
  lineNumber := context.lines
  pending := none
  terminal := false

theorem decoderAt_start : decoderAt .start [] = .withConfig := rfl

theorem saturatingAdd_succ (left right : Nat) :
    saturatingAdd (saturatingAdd left right) 1 = saturatingAdd left (right + 1) := by
  simp only [saturatingAdd]
  omega

theorem saturatingAdd_zero (left right : Nat) :
    saturatingAdd (saturatingAdd left right) 0 = saturatingAdd left right := by
  simp only [saturatingAdd]
  omega

section Bytes

variable {config : SseConfig} {context : Context} {line : List UInt8}

def Fits (config : SseConfig) (context : Context) (line : List UInt8) : Prop :=
  saturatingAdd context.bytes line.length ≤ config.maxEventBytes ∧
    line.length ≤ config.maxLineBytes

theorem setField_decoderAt (field : Field) (size : Nat) : setField
      { decoderAt context [] with
        eventBytes := saturatingAdd context.bytes size
        fieldCount := min (context.fields.length + 1) (2 ^ 64 - 1)
        lineNumber := context.number } field.name field.value =
      decoderAt (context.next size (some field)) [] := by
  simp only [setField, decoderAt, next, Option.toList_some,
    List.filterMap_append, ← List.append_assoc, lastOf_concat, List.length_append,
    List.length_singleton, List.length_nil, saturatingAdd_zero, Field.data?, Field.event?,
    Field.id?, Field.retry?, parseRetry_eq_number, List.filterMap_cons, List.filterMap_nil]
  split_ifs <;> simp_all

def decoderAtEnd (context : Context) (line : List UInt8) (ending : Nat) : SseDecoder :=
  { decoderAt context line with eventBytes := saturatingAdd context.bytes (line.length + ending) }

theorem finishLine_empty (ending : Nat) : (decoderAtEnd context [] ending).finishLine config =
      { decoderAt context.nextEvent [] with pending := context.event?.map .ok } := by
  simp only [finishLine, decoderAtEnd, decoderAt, List.isEmpty_nil, if_true,
    dispatchEvent, nextEvent, event?, number]
  split_ifs <;> simp_all [lastOf, saturatingAdd]

theorem decoderAt_comment (size : Nat) : decoderAt (context.next size none) [] =
    { decoderAt context [] with
      eventBytes := saturatingAdd context.bytes size
      lineNumber := context.number } := by
  simp [decoderAt, next, saturatingAdd]

/-- A line that is read well leads to the decoder after it; one that is not ends all. -/
theorem finishLine_text (notEmpty : line ≠ []) (ending : Nat) :
    match context.readText config line ending with
    | .ok next => (decoderAtEnd context line ending).finishLine config = decoderAt next []
    | .error error =>
      ((decoderAtEnd context line ending).finishLine config).pending = some (.error error) ∧
        ((decoderAtEnd context line ending).finishLine config).terminal = true := by
  have nonempty : line.isEmpty = false := by simpa using notEmpty
  simp only [finishLine, decoderAtEnd, decoderAt, nonempty, readText]
  cases Text.fromUtf8 line with
  | none => exact ⟨rfl, rfl⟩
  | some text =>
    cases comment : Text.startsWith text ":" with
    | true =>
      simp only [comment, if_true, Bool.false_eq_true, if_false]
      exact (decoderAt_comment _).symm
    | false =>
      have counted : saturatingAdd (min context.fields.length (2 ^ 64 - 1)) 1 =
          min (context.fields.length + 1) (2 ^ 64 - 1) := by
        simp only [saturatingAdd]
        omega
      have length : (context.next (line.length + ending)
          (some (.ofLine text))).fields.length = context.fields.length + 1 := by
        simp [next]
      simp only [comment, Bool.false_eq_true, if_false, readField, counted, length,
        splitField_eq_ofLine]
      cases config.maxFieldsPerEvent.filter
          (· < min (context.fields.length + 1) (2 ^ 64 - 1)) with
      | some limit => exact ⟨rfl, rfl⟩
      | none => exact setField_decoderAt (.ofLine text) (line.length + ending)

/-! ## One byte -/

theorem overrun_event (fits : Fits config context line)
    (exceeds : config.maxEventBytes < saturatingAdd context.bytes (line.length + 1))
    {whole : List UInt8} {ending : Nat} (more : line.length < whole.length + ending) :
    context.overrun config whole ending = some (.limitExceeded .eventBytes config.maxEventBytes
      (saturatingAdd context.bytes (line.length + 1)) context.number) := by
  unfold Fits at fits
  simp only [saturatingAdd] at fits exceeds
  have observed : saturatingAdd context.bytes (line.length + 1) = config.maxEventBytes + 1 := by
    simp only [saturatingAdd]
    omega
  rw [overrun, if_pos, observed]
  simp only [saturatingAdd]
  omega

theorem overrun_line (fits : Fits config context line)
    (within : saturatingAdd context.bytes (line.length + 1) ≤ config.maxEventBytes)
    (exceeds : config.maxLineBytes < line.length + 1)
    {whole : List UInt8} {ending : Nat} (more : line.length < whole.length) :
    context.overrun config whole ending = some (.limitExceeded .lineBytes config.maxLineBytes
      (line.length + 1) context.number) := by
  unfold Fits at fits
  have observed : line.length + 1 = config.maxLineBytes + 1 := by omega
  rw [overrun, if_neg, if_pos (by omega), observed]
  simp only [saturatingAdd] at within ⊢
  omega

theorem overrun_none {ending : Nat}
    (within : saturatingAdd context.bytes (line.length + ending) ≤ config.maxEventBytes)
    (short : line.length ≤ config.maxLineBytes) : context.overrun config line ending = none := by
  rw [overrun, if_neg (by omega), if_neg (by omega)]

theorem processByte_over (byte : UInt8)
    (exceeds : config.maxEventBytes < saturatingAdd context.bytes (line.length + 1)) :
    (decoderAt context line).processByte config byte = (decoderAtEnd context line 1).fail
      (.limitExceeded .eventBytes config.maxEventBytes
        (saturatingAdd context.bytes (line.length + 1)) context.number) := by
  simp only [processByte, decoderAt, Bool.false_eq_true, false_and, if_false,
    countByte, saturatingAdd_succ, if_pos exceeds]
  rfl

theorem processByte_text {byte : UInt8} (noReturn : byte ≠ 13) (noFeed : byte ≠ 10)
    (within : saturatingAdd context.bytes (line.length + 1) ≤ config.maxEventBytes) :
    (decoderAt context line).processByte config byte =
      if config.maxLineBytes < line.length + 1 then
        (decoderAt context (line ++ [byte])).fail (.limitExceeded .lineBytes config.maxLineBytes
          (line.length + 1) context.number)
      else decoderAt context (line ++ [byte]) := by
  simp only [processByte, decoderAt, Bool.false_eq_true, false_and, if_false,
    countByte, saturatingAdd_succ, Nat.not_lt.mpr within, List.length_append,
    List.length_singleton, carriageReturn, lineFeed, noReturn, noFeed]
  rfl

theorem finishLine_sawCr (decoder : SseDecoder) :
    (decoder.finishLine config).sawCr = decoder.sawCr := by
  simp only [finishLine, readField]
  split_ifs
  · rfl
  · split
    · rfl
    · split_ifs
      · rfl
      · split
        · rfl
        · unfold setField
          split_ifs <;> rfl

theorem processByte_feed
    (within : saturatingAdd context.bytes (line.length + 1) ≤ config.maxEventBytes) :
    (decoderAt context line).processByte config 10 =
      { (decoderAtEnd context line 1).finishLine config with sawCr := false } := by
  have unset : ((decoderAtEnd context line 1).finishLine config).sawCr = false := finishLine_sawCr _
  rw [← unset]
  simp only [processByte, decoderAt, Bool.false_eq_true, false_and, if_false,
    countByte, saturatingAdd_succ, Nat.not_lt.mpr within, decoderAtEnd]
  rfl

theorem processByte_return
    (within : saturatingAdd context.bytes (line.length + 1) ≤ config.maxEventBytes) :
    (decoderAt context line).processByte config 13 =
      { (decoderAtEnd context line 1).finishLine config with sawCr := true } := by
  simp only [processByte, decoderAt, Bool.false_eq_true, false_and, if_false,
    countByte, saturatingAdd_succ, Nat.not_lt.mpr within, decoderAtEnd]
  rfl

theorem itemsFrom_fails {decoder : SseDecoder} {byte : UInt8} {rest : List UInt8}
    {error : SseError} (pending : (decoder.processByte config byte).pending = some (.error error))
    (terminal : (decoder.processByte config byte).terminal = true) :
    decoder.itemsFrom config (byte :: rest) = [.error error] := by
  simp [itemsFrom, pending, terminal]

/-- The input without an LF at its start, which a CR before it has made part of a CRLF. -/
def skipFeed : List UInt8 → List UInt8
  | 10 :: rest => rest
  | input => input

theorem itemsFrom_sawCr (input : List UInt8) :
    itemsFrom config { decoderAt context [] with sawCr := true } input =
      (decoderAt context []).itemsFrom config (skipFeed input) := by
  cases input with
  | nil => rfl
  | cons byte rest =>
    by_cases feed : byte = 10
    · subst feed
      rfl
    · have same : processByte config { decoderAt context [] with sawCr := true } byte =
          (decoderAt context []).processByte config byte := by
        simp [processByte, decoderAt, lineFeed, feed]
      have kept : skipFeed (byte :: rest) = byte :: rest := by
        unfold skipFeed
        split
        · next equal => exact absurd (List.cons.inj equal).1 feed
        · rfl
      rw [kept]
      simp only [itemsFrom, same]

theorem ofInput_return (rest : List UInt8) :
    Lines.ofInput (13 :: rest) = (Lines.ofInput (skipFeed rest)).afterEmpty := by
  unfold skipFeed
  split
  · rw [Lines.ofInput]
  · next noFeed =>
      rw [Lines.ofInput]
      exact noFeed

theorem ofInput_feed (rest : List UInt8) :
    Lines.ofInput (10 :: rest) = (Lines.ofInput rest).afterEmpty := by
  rw [Lines.ofInput]

theorem ofInput_text {byte : UInt8} (noReturn : byte ≠ 13) (noFeed : byte ≠ 10)
    (rest : List UInt8) :
    Lines.ofInput (byte :: rest) = (Lines.ofInput rest).startWith [byte] := by
  rw [Lines.ofInput]
  · exact fun _ equal _ => noReturn equal
  · exact noReturn
  · exact noFeed

theorem bytes_of_readText {ending : Nat} {next : Context}
    (read : context.readText config line ending = .ok next) :
    next.bytes = saturatingAdd context.bytes (line.length + ending) := by
  unfold readText at read
  cases decoded : Text.fromUtf8 line with
  | none => simp [decoded] at read
  | some text =>
    simp only [decoded] at read
    split_ifs at read
    · cases read
      rfl
    · split at read <;> cases read
      rfl

/-- The end of a line: `cr` when it is a CR, and `after` is the input after the whole
end. -/
theorem itemsFrom_lineEnd (fits : Fits config context line) {byte : UInt8} {cr : Bool}
    (ends : saturatingAdd context.bytes (line.length + 1) ≤ config.maxEventBytes →
      (decoderAt context line).processByte config byte =
        { (decoderAtEnd context line 1).finishLine config with sawCr := cr })
    {rest after : List UInt8}
    (skips : ∀ next, itemsFrom config { decoderAt next [] with sawCr := cr } rest =
      (decoderAt next []).itemsFrom config after)
    {lines : Lines}
    (reads : ∀ next, Fits config next [] → (decoderAt next []).itemsFrom config after =
      readLines config next lines.tail lines.ended) :
    (decoderAt context line).itemsFrom config (byte :: rest) =
      readLines config context lines.tail (line :: lines.ended) := by
  rcases Nat.lt_or_ge config.maxEventBytes (saturatingAdd context.bytes (line.length + 1)) with
    exceeds | within
  · have fails := processByte_over byte exceeds
    rw [itemsFrom_fails (by rw [fails]; rfl) (by rw [fails]; rfl)]
    have overruns := @overrun_event _ _ _ fits exceeds line 1 (Nat.lt_succ_self _)
    simp only [readLines, readLine, overruns]
  · have noOverrun := overrun_none within fits.2
    by_cases empty : line = []
    · subst empty
      have nextFits : Fits config context.nextEvent [] := ⟨Nat.zero_le _, Nat.zero_le _⟩
      simp only [readLines, readLine, noOverrun, if_true, ← reads _ nextFits, ← skips,
        itemsFrom, ends within, finishLine_empty]
      cases context.event? <;> rfl
    · have finished := @finishLine_text config context line empty 1
      simp only [readLines, readLine, noOverrun, if_neg empty]
      cases read : context.readText config line 1 with
      | error error =>
        rw [read] at finished
        exact itemsFrom_fails (ends within ▸ finished.1) (ends within ▸ finished.2)
      | ok next =>
        rw [read] at finished
        have nextFits : Fits config next [] := by
          refine ⟨?_, Nat.zero_le _⟩
          rw [bytes_of_readText read, List.length_nil, saturatingAdd_zero]
          exact within
        simp only [Except.map, Option.toList_none, List.map_nil, List.nil_append,
          ← reads _ nextFits, ← skips, itemsFrom, ends within, finished]
        rfl

theorem readLines_overrun {start : List UInt8} (notEmpty : start ≠ []) {error : SseError}
    (exceeds : ∀ more ending, context.overrun config (start ++ more) ending = some error)
    (lines : Lines) :
    readLines config context (lines.startWith start).tail (lines.startWith start).ended =
      [.error error] := by
  rcases lines with ⟨_ | ⟨line, rest⟩, tail⟩
  · simp [Lines.startWith, readLines, readTail, notEmpty, readLine, exceeds]
  · simp [Lines.startWith, readLines, readLine, exceeds]

theorem itemsFrom_text (fits : Fits config context line) {byte : UInt8}
    (noReturn : byte ≠ 13) (noFeed : byte ≠ 10) {rest : List UInt8} {lines : Lines}
    (reads : Fits config context (line ++ [byte]) →
      (decoderAt context (line ++ [byte])).itemsFrom config rest =
        readLines config context (lines.startWith (line ++ [byte])).tail
          (lines.startWith (line ++ [byte])).ended) :
    (decoderAt context line).itemsFrom config (byte :: rest) =
      readLines config context (lines.startWith (line ++ [byte])).tail
        (lines.startWith (line ++ [byte])).ended := by
  have notEmpty : line ++ [byte] ≠ [] := by simp
  have longer (more : List UInt8) : line.length < (line ++ [byte] ++ more).length := by simp
  rcases Nat.lt_or_ge config.maxEventBytes (saturatingAdd context.bytes (line.length + 1)) with
    exceeds | within
  · have fails := processByte_over byte exceeds
    rw [itemsFrom_fails (by rw [fails]; rfl) (by rw [fails]; rfl)]
    exact (readLines_overrun notEmpty (fun more ending =>
      overrun_event fits exceeds (Nat.lt_add_right ending (longer more))) lines).symm
  have stepped := @processByte_text _ _ line byte noReturn noFeed within
  rcases Nat.lt_or_ge config.maxLineBytes (line.length + 1) with exceeds | short
  · rw [if_pos exceeds] at stepped
    rw [itemsFrom_fails (by rw [stepped]; rfl) (by rw [stepped]; rfl)]
    exact (readLines_overrun notEmpty (fun more _ =>
      overrun_line fits within exceeds (longer more)) lines).symm
  · rw [if_neg (Nat.not_lt.mpr short)] at stepped
    rw [← reads (by simpa [Fits] using ⟨within, short⟩)]
    simp only [itemsFrom, stepped]
    rfl

theorem finishEof_empty :
    ((decoderAt context []).finishEof config).pending = context.event?.map .ok := by
  simp only [finishEof, decoderAt, List.isEmpty_nil, if_true, Option.isNone_none,
    and_self, dispatchEvent, event?]
  split_ifs <;> simp_all

theorem itemsFrom_end (fits : Fits config context line) :
    (decoderAt context line).itemsFrom config [] = context.readTail config line := by
  by_cases empty : line = []
  · subst empty
    simp only [itemsFrom, readTail, if_true, finishEof_empty, Option.toList_map]
  · have nonempty : (decoderAt context line).line.isEmpty = false := by
      simpa [decoderAt] using empty
    have noOverrun := @overrun_none config context line 0 fits.1 fits.2
    have finished := @finishLine_text config context line empty 0
    have noEnding : decoderAtEnd context line 0 = decoderAt context line := rfl
    simp only [itemsFrom, readTail, readLine, noOverrun, if_neg empty]
    cases read : context.readText config line 0 with
    | error error =>
      rw [read, noEnding] at finished
      simp [finishEof, nonempty, finished.1, Except.map]
    | ok next =>
      rw [read, noEnding] at finished
      have closed : ((decoderAt context line).finishEof config).pending =
          ((decoderAt next []).finishEof config).pending := by
        simp only [finishEof, nonempty, finished]
        rfl
      rw [closed, finishEof_empty, Option.toList_map]
      rfl

/-- By induction on the rest of the input, with what has been read of the line. -/
theorem itemsFrom_decoderAt (config : SseConfig) (input : List UInt8) (context : Context)
    (line : List UInt8) (fits : Fits config context line) :
    (decoderAt context line).itemsFrom config input =
      let lines := (Lines.ofInput input).startWith line
      readLines config context lines.tail lines.ended := by
  induction size_eq : input.length using Nat.strong_induction_on
    generalizing input context line with
  | _ size induction =>
    match input with
    | [] =>
      simp only [Lines.ofInput, Lines.startWith, List.append_nil, readLines]
      exact itemsFrom_end fits
    | byte :: rest =>
      have skipped : (skipFeed rest).length ≤ rest.length := by
        unfold skipFeed
        split <;> simp
      have later (after : List UInt8) (shorter : after.length ≤ rest.length) (next : Context)
          (nextFits : Fits config next []) : (decoderAt next []).itemsFrom config after =
            readLines config next (Lines.ofInput after).tail (Lines.ofInput after).ended := by
        have smaller : after.length < size := by
          rw [← size_eq, List.length_cons]
          omega
        rw [induction _ smaller after next [] nextFits rfl, Lines.startWith_nil]
      by_cases isReturn : byte = 13
      · subst isReturn
        rw [ofInput_return]
        simp only [Lines.afterEmpty, Lines.startWith, List.append_nil]
        exact itemsFrom_lineEnd fits processByte_return (fun _ => itemsFrom_sawCr rest)
          (later _ skipped)
      by_cases isFeed : byte = 10
      · subst isFeed
        rw [ofInput_feed]
        simp only [Lines.afterEmpty, Lines.startWith, List.append_nil]
        exact itemsFrom_lineEnd fits processByte_feed (fun _ => rfl) (later _ le_rfl)
      · rw [ofInput_text isReturn isFeed]
        simp only [Lines.startWith_startWith]
        refine itemsFrom_text fits isReturn isFeed fun longerFits => ?_
        have smaller : rest.length < size := by simp [← size_eq]
        exact induction _ smaller rest context (line ++ [byte]) longerFits rfl

end Bytes

end SseReference

/-- However the body is delivered, the decoder yields the items of the whole input. -/
theorem SseStream.yields_reference_items (config : SseConfig) (input : List UInt8)
    (deliveries : Deliveries) (delivered : deliveries.bytes = input)
    (within : deliveries.Within config) :
    ∀ items, (calls config).Yields (withConfig deliveries) items ↔
      items = SseReference.items config input := by
  intro items
  have fits : SseReference.Fits config .start [] := ⟨Nat.zero_le _, Nat.zero_le _⟩
  have read := SseReference.itemsFrom_decoderAt config input .start [] fits
  simp only [SseReference.Lines.startWith_nil, SseReference.decoderAt_start] at read
  have yields := yields_itemsFrom deliveries within
  rw [delivered, read] at yields
  exact yields.iff_eq

/-- A CRLF that two chunks share, a line that ends with a lone CR, and an event that the end
of the body completes. -/
def splitReturn : Deliveries :=
  [.ready (Text.bytes "id: 1\r"), .pending, .ready [],
    .ready (Text.bytes "\ndata: a\ndata:b\r\r"), .ready (Text.bytes ": note\nretry: 5\ndata")]

theorem splitReturn_yields : splitReturn.Within default ∧
    (SseStream.calls default).Yields (SseStream.withConfig splitReturn)
      [.ok ⟨⟨"a\nb", none⟩, some "1", none⟩, .ok ⟨⟨"", none⟩, some "1", some 5⟩] := by
  have within : splitReturn.Within default := by
    intro chunk member
    simp only [splitReturn, List.mem_cons, Poll.ready.injEq, reduceCtorEq, false_or,
      List.not_mem_nil, or_false] at member
    rcases member with rfl | rfl | rfl | rfl <;> decide
  refine ⟨within, (SseStream.yields_reference_items default splitReturn.bytes splitReturn rfl
    within _).mpr ?_⟩
  decide +kernel

end Philo
