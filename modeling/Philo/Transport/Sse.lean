import Philo.Foundation.Polling
import Philo.Protocol.StructuredTerminal
import Philo.Transport.Body

/-! Incremental framing of Server-Sent Events: a decoder that is fed one byte at a time,
and the stream around it that polls a body for the bytes. -/

namespace Philo

structure SseConfig where
  maxEventBytes : Nat
  maxLineBytes : Nat
  maxFieldsPerEvent : Option Nat
  maxChunkBytes : Nat
  maxBytesPerPoll : Nat
  maxChunksPerPoll : Nat
  maxEventsPerPoll : Nat
  eventBytesPositive : 0 < maxEventBytes
  lineBytesPositive : 0 < maxLineBytes
  chunkBytesPositive : 0 < maxChunkBytes
  bytesPerPollPositive : 0 < maxBytesPerPoll
  chunksPerPollPositive : 0 < maxChunksPerPoll
  eventsPerPollPositive : 0 < maxEventsPerPoll
  deriving DecidableEq

namespace SseConfig

def new (maxEventBytes maxLineBytes : Nat) : Except ValidationError SseConfig :=
  if event : maxEventBytes = 0 then
    .error ⟨"max_event_bytes", .zero, "SSE event byte limit must be positive"⟩
  else if line : maxLineBytes = 0 then
    .error ⟨"max_line_bytes", .zero, "SSE line byte limit must be positive"⟩
  else .ok
    { maxEventBytes
      maxLineBytes
      maxFieldsPerEvent := some 128
      maxChunkBytes := 256 * 1024
      maxBytesPerPoll := 64 * 1024
      maxChunksPerPoll := 16
      maxEventsPerPoll := 32
      eventBytesPositive := Nat.pos_of_ne_zero event
      lineBytesPositive := Nat.pos_of_ne_zero line
      chunkBytesPositive := by decide
      bytesPerPollPositive := by decide
      chunksPerPollPositive := by decide
      eventsPerPollPositive := by decide }

instance : Inhabited SseConfig where
  default :=
    { maxEventBytes := 1024 * 1024
      maxLineBytes := 64 * 1024
      maxFieldsPerEvent := some 128
      maxChunkBytes := 256 * 1024
      maxBytesPerPoll := 64 * 1024
      maxChunksPerPoll := 16
      maxEventsPerPoll := 32
      eventBytesPositive := by decide
      lineBytesPositive := by decide
      chunkBytesPositive := by decide
      bytesPerPollPositive := by decide
      chunksPerPollPositive := by decide
      eventsPerPollPositive := by decide }

def withMaxFieldsPerEvent (config : SseConfig) (limit : Option Nat) : SseConfig :=
  { config with maxFieldsPerEvent := limit }

def validatePositiveLimit (field : String) (value : Nat) :
    Except ValidationError (PLift (0 < value)) :=
  if zero : value = 0 then
    .error ⟨field, .zero, "stream work and buffer limits must be positive"⟩
  else .ok ⟨Nat.pos_of_ne_zero zero⟩

def withMaxChunkBytes (config : SseConfig) (limit : Nat) : Except ValidationError SseConfig := do
  let ⟨positive⟩ ← validatePositiveLimit "max_chunk_bytes" limit
  .ok { config with maxChunkBytes := limit, chunkBytesPositive := positive }

def withPollBudget (config : SseConfig) (maxBytes maxChunks maxEvents : Nat) :
    Except ValidationError SseConfig := do
  let ⟨bytes⟩ ← validatePositiveLimit "max_bytes_per_poll" maxBytes
  let ⟨chunks⟩ ← validatePositiveLimit "max_chunks_per_poll" maxChunks
  let ⟨events⟩ ← validatePositiveLimit "max_events_per_poll" maxEvents
  .ok
    { config with
      maxBytesPerPoll := maxBytes
      maxChunksPerPoll := maxChunks
      maxEventsPerPoll := maxEvents
      bytesPerPollPositive := bytes
      chunksPerPollPositive := chunks
      eventsPerPollPositive := events }

end SseConfig

/-- The whole of the source's `SseEvent`: with the two fields that no protocol reads. -/
structure SseFrame extends SseEvent where
  id : Option String
  retryMillis : Option UInt64
  deriving DecidableEq

inductive SseLimit where
  | chunkBytes | eventBytes | lineBytes | fields
  deriving DecidableEq

def SseLimit.debug : SseLimit → String
  | .chunkBytes => "ChunkBytes"
  | .eventBytes => "EventBytes"
  | .lineBytes => "LineBytes"
  | .fields => "Fields"

inductive SseError where
  | upstream (error : LlmError)
  | invalidUtf8 (line : Nat)
  | limitExceeded (resource : SseLimit) (limit observed line : Nat)
  deriving DecidableEq

def SseError.intoLlmError : SseError → LlmError
  | .upstream error => error
  | .invalidUtf8 line => .protocol (.atStage .sse s!"invalid UTF-8 on SSE line {line}")
  | .limitExceeded resource limit observed line =>
    .protocol (.atStage .sse
      (s!"SSE {resource.debug} limit exceeded on line {line}: limit {limit}, " ++
        s!"observed at least {observed}"))

abbrev SseItem := Except SseError SseFrame

/-- The field and the value of a line: `split_once(':')`, the line itself as a field with
an empty value where there is no colon, and one leading space of the value gone. -/
def SseDecoder.splitField (line : String) : String × String :=
  let (field, value) := (Text.splitOnce line ':').getD (line, "")
  (field, (Text.stripStart value " ").getD value)

def SseDecoder.parseRetry (value : String) : Option UInt64 :=
  if value.isEmpty || !value.toList.all Char.isDigit then none
  else
    let number := Nat.ofDigits 10 (value.toList.map fun digit => digit.toNat - '0'.toNat).reverse
    if number < 2 ^ 64 then some (.ofNat number) else none

/-- The decoder, apart from its upstream and the chunk that it reads (see `SseStream`) and
from its configuration, which is passed to each function. -/
structure SseDecoder where
  line : List UInt8
  dataLines : List String
  eventType : Option String
  lastEventId : Option String
  retryMillis : Option UInt64
  hasData : Bool
  sawCr : Bool
  eventBytes : Nat
  fieldCount : Nat
  lineNumber : Nat
  pending : Option SseItem
  terminal : Bool
  deriving DecidableEq

namespace SseDecoder

def withConfig : SseDecoder := ⟨[], [], none, none, none, false, false, 0, 0, 0, none, false⟩

def carriageReturn : UInt8 := 13

def lineFeed : UInt8 := 10

/-- `fail`, which also drops the chunk: see `SseStream.afterByte`. -/
def fail (decoder : SseDecoder) (error : SseError) : SseDecoder :=
  { decoder with
    line := []
    dataLines := []
    pending := some (.error error)
    terminal := true }

def dispatchEvent (decoder : SseDecoder) : SseDecoder :=
  { decoder with
    pending :=
      if decoder.hasData then
        some (.ok
          { data := "\n".intercalate decoder.dataLines
            eventType := decoder.eventType
            id := decoder.lastEventId
            retryMillis := decoder.retryMillis })
      else decoder.pending
    dataLines := []
    eventType := none
    retryMillis := none
    hasData := false
    eventBytes := 0
    fieldCount := 0 }

def setField (decoder : SseDecoder) (field value : String) : SseDecoder :=
  if field = "data" then
    { decoder with hasData := true, dataLines := decoder.dataLines ++ [value] }
  else if field = "event" then { decoder with eventType := some value }
  else if field = "id" ∧ Char.ofNat 0 ∉ value.toList then
    { decoder with lastEventId := some value }
  else if field = "retry" then
    { decoder with retryMillis := (parseRetry value).or decoder.retryMillis }
  else decoder

variable (config : SseConfig)

/-- `finish_line` from the count of fields on: the line is text and not a comment. -/
def readField (decoder : SseDecoder) (line : String) : SseDecoder :=
  let counted := { decoder with fieldCount := saturatingAdd decoder.fieldCount 1 }
  match config.maxFieldsPerEvent.filter (· < counted.fieldCount) with
  | some limit => counted.fail (.limitExceeded .fields limit counted.fieldCount counted.lineNumber)
  | none => counted.setField (splitField line).1 (splitField line).2

def finishLine (decoder : SseDecoder) : SseDecoder :=
  let bytes := decoder.line
  let taken := { decoder with line := [], lineNumber := saturatingAdd decoder.lineNumber 1 }
  if bytes.isEmpty then taken.dispatchEvent
  else
    match Text.fromUtf8 bytes with
    | none => taken.fail (.invalidUtf8 taken.lineNumber)
    | some line => if Text.startsWith line ":" then taken else taken.readField config line

def countByte (decoder : SseDecoder) (byte : UInt8) : SseDecoder :=
  let counted := { decoder with eventBytes := saturatingAdd decoder.eventBytes 1 }
  if config.maxEventBytes < counted.eventBytes then
    counted.fail (.limitExceeded .eventBytes config.maxEventBytes counted.eventBytes
      (saturatingAdd counted.lineNumber 1))
  else if byte = carriageReturn then { counted.finishLine config with sawCr := true }
  else if byte = lineFeed then counted.finishLine config
  else
    let pushed := { counted with line := counted.line ++ [byte] }
    if config.maxLineBytes < pushed.line.length then
      pushed.fail (.limitExceeded .lineBytes config.maxLineBytes pushed.line.length
        (saturatingAdd pushed.lineNumber 1))
    else pushed

def processByte (decoder : SseDecoder) (byte : UInt8) : SseDecoder :=
  if decoder.sawCr ∧ byte = lineFeed then { decoder with sawCr := false }
  else countByte config { decoder with sawCr := false } byte

def finishEof (decoder : SseDecoder) : SseDecoder :=
  let closed := if decoder.line.isEmpty then decoder else decoder.finishLine config
  let dispatched :=
    if closed.pending.isNone ∧ closed.terminal = false then closed.dispatchEvent else closed
  { dispatched with terminal := true }

end SseDecoder

/-! ## Polling -/

/-- A decoder, the part of its chunk from `chunk_offset` on (empty where there is no
chunk), and the state behind its upstream. -/
structure SseStream (υ : Type) where
  decoder : SseDecoder
  unread : List UInt8
  upstream : υ

namespace SseStream

def withConfig {υ : Type} (upstream : υ) : SseStream υ := ⟨.withConfig, [], upstream⟩

inductive Action where
  | processed (byte : UInt8)
  | polledUpstream (result : Poll BodyItem)
  | woke

structure Polled (υ : Type) where
  result : Poll (Option SseItem)
  stream : SseStream υ
  actions : List Action

variable {υ : Type}

namespace Polled

def after (action : Action) (later : Polled υ) : Polled υ :=
  { later with actions := action :: later.actions }

def call (polled : Polled υ) : Poll (Option SseItem) × SseStream υ := (polled.result, polled.stream)

@[simp] theorem call_after (action : Action) (later : Polled υ) :
    (after action later).call = later.call := rfl

end Polled

def taken (stream : SseStream υ) : SseStream υ :=
  { stream with decoder := { stream.decoder with pending := none } }

theorem taken_of_pending_none {stream : SseStream υ} (nothing : stream.decoder.pending = none) :
    stream.taken = stream := by
  rw [taken, ← nothing]

def takePending (stream : SseStream υ) : Polled υ :=
  ⟨.ready stream.decoder.pending, stream.taken, []⟩

def yieldNow (stream : SseStream υ) : Polled υ := ⟨.pending, stream, [.woke]⟩

def fail (stream : SseStream υ) (error : SseError) : SseStream υ :=
  { stream with decoder := stream.decoder.fail error }

variable (config : SseConfig)

/-- The stream after one byte of the chunk, of which `rest` follows. A decoder that fails
drops its chunk. -/
def afterByte (stream : SseStream υ) (byte : UInt8) (rest : List UInt8) : SseStream υ :=
  let next := stream.decoder.processByte config byte
  { stream with decoder := next, unread := if next.terminal then [] else rest }

variable (pollUpstream : υ → Poll BodyItem × υ)

/-- The loop of `poll_next`, with the numbers of bytes and of chunks that this call may
still take. -/
def pollLoop (bytes chunks : Nat) (stream : SseStream υ) : Polled υ :=
  match stream.unread, bytes, chunks with
  | _ :: _, 0, _ => stream.yieldNow
  | byte :: rest, bytes + 1, chunks =>
    let next := stream.afterByte config byte rest
    .after (.processed byte)
      (if next.decoder.pending.isSome then next.takePending
      else if next.decoder.terminal then ⟨.ready none, next, []⟩
      else pollLoop bytes chunks next)
  | [], _, 0 => stream.yieldNow
  | [], bytes, chunks + 1 =>
    let (polled, upstream) := pollUpstream stream.upstream
    let next := { stream with upstream }
    .after (.polledUpstream polled)
      (match polled with
      | .ready (.chunk chunk) =>
        -- An empty chunk counts as one, and leaves nothing to read.
        if config.maxChunkBytes < chunk.length then
          (next.fail (.limitExceeded .chunkBytes config.maxChunkBytes chunk.length
            (saturatingAdd stream.decoder.lineNumber 1))).takePending
        else pollLoop bytes chunks { next with unread := chunk }
      | .ready (.failed error) => (next.fail (.upstream error)).takePending
      | .ready .ended => takePending { next with decoder := stream.decoder.finishEof config }
      | .pending => ⟨.pending, next, []⟩)
termination_by bytes + chunks
decreasing_by all_goals simp only [wfParam]; omega

section Loop

/-! ### One turn of the loop -/

variable {υ : Type} {config : SseConfig} {pollUpstream : υ → Poll BodyItem × υ}
  {stream : SseStream υ} {bytes chunks : Nat}

theorem pollLoop_byte {byte : UInt8} {rest : List UInt8} (unread : stream.unread = byte :: rest) :
    stream.pollLoop config pollUpstream (bytes + 1) chunks =
      let next := stream.afterByte config byte rest
      .after (.processed byte)
        (if next.decoder.pending.isSome then next.takePending
        else if next.decoder.terminal then ⟨.ready none, next, []⟩
        else next.pollLoop config pollUpstream bytes chunks) := by
  rw [pollLoop.eq_def, unread]

theorem pollLoop_bytes_spent (unread : stream.unread ≠ []) :
    stream.pollLoop config pollUpstream 0 chunks = stream.yieldNow := by
  rcases List.exists_cons_of_ne_nil unread with ⟨byte, rest, equal⟩
  rw [pollLoop.eq_def, equal]

theorem pollLoop_chunks_spent (unread : stream.unread = []) :
    stream.pollLoop config pollUpstream bytes 0 = stream.yieldNow := by
  rw [pollLoop.eq_def, unread]

theorem pollLoop_chunk (unread : stream.unread = []) {chunk : List UInt8} {upstream : υ}
    (polled : pollUpstream stream.upstream = (.ready (.chunk chunk), upstream)) :
    stream.pollLoop config pollUpstream bytes (chunks + 1) =
      .after (.polledUpstream (.ready (.chunk chunk)))
        (if config.maxChunkBytes < chunk.length then
          (fail { stream with upstream } (.limitExceeded .chunkBytes config.maxChunkBytes
            chunk.length (saturatingAdd stream.decoder.lineNumber 1))).takePending
        else pollLoop config pollUpstream bytes chunks
          { stream with upstream, unread := chunk }) := by
  rw [pollLoop.eq_def, unread, polled]

theorem pollLoop_failed (unread : stream.unread = []) {error : LlmError} {upstream : υ}
    (polled : pollUpstream stream.upstream = (.ready (.failed error), upstream)) :
    stream.pollLoop config pollUpstream bytes (chunks + 1) =
      .after (.polledUpstream (.ready (.failed error)))
        (fail { stream with upstream } (.upstream error)).takePending := by
  rw [pollLoop.eq_def, unread, polled]

theorem pollLoop_ended (unread : stream.unread = []) {upstream : υ}
    (polled : pollUpstream stream.upstream = (.ready .ended, upstream)) :
    stream.pollLoop config pollUpstream bytes (chunks + 1) =
      .after (.polledUpstream (.ready .ended))
        (takePending { stream with decoder := stream.decoder.finishEof config, upstream }) := by
  rw [pollLoop.eq_def, unread, polled]

theorem pollLoop_pending (unread : stream.unread = []) {upstream : υ}
    (polled : pollUpstream stream.upstream = (.pending, upstream)) :
    stream.pollLoop config pollUpstream bytes (chunks + 1) =
      .after (.polledUpstream .pending) ⟨.pending, { stream with upstream }, []⟩ := by
  rw [pollLoop.eq_def, unread, polled]

end Loop

def pollNext (stream : SseStream υ) : Polled υ :=
  if stream.decoder.pending.isSome then stream.takePending
  else if stream.decoder.terminal then ⟨.ready none, stream, []⟩
  else stream.pollLoop config pollUpstream config.maxBytesPerPoll config.maxChunksPerPoll

end SseStream

end Philo
