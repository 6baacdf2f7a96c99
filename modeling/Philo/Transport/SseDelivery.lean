import Philo.Transport.Sse

/-! What the decoder yields depends on the bytes of the body alone: not on how they are
cut into chunks, on how often the body is not ready, or on what one call may take. -/

namespace Philo

open PollNext

def SseDecoder.itemsFrom (config : SseConfig) : SseDecoder → List UInt8 → List SseItem
  | decoder, [] => (decoder.finishEof config).pending.toList
  | decoder, byte :: rest =>
    let next := decoder.processByte config byte
    next.pending.toList ++
      if next.terminal then [] else itemsFrom config { next with pending := none } rest

/-- The configurations frame the same way. They may differ in what a chunk may hold and in
what one call may take. -/
structure SseConfig.SameFraming (first second : SseConfig) : Prop where
  eventBytes : first.maxEventBytes = second.maxEventBytes
  lineBytes : first.maxLineBytes = second.maxLineBytes
  fields : first.maxFieldsPerEvent = second.maxFieldsPerEvent

namespace SseDecoder

variable {first second : SseConfig} (same : first.SameFraming second)

include same

theorem finishLine_congr (decoder : SseDecoder) :
    decoder.finishLine first = decoder.finishLine second := by
  simp only [finishLine, readField, same.fields]

theorem processByte_congr (decoder : SseDecoder) (byte : UInt8) :
    decoder.processByte first byte = decoder.processByte second byte := by
  simp only [processByte, countByte, same.eventBytes, same.lineBytes, finishLine_congr same]

theorem itemsFrom_congr (decoder : SseDecoder) (bytes : List UInt8) :
    decoder.itemsFrom first bytes = decoder.itemsFrom second bytes := by
  induction bytes generalizing decoder with
  | nil => simp only [itemsFrom, finishEof, finishLine_congr same]
  | cons byte rest induction => simp only [itemsFrom, processByte_congr same, induction]

end SseDecoder

/-- What the polls of a body give before it ends normally: chunks, or nothing yet. -/
abbrev Deliveries := List (Poll (List UInt8))

namespace Deliveries

def poll : Deliveries → Poll BodyItem × Deliveries
  | [] => (.ready .ended, [])
  | .pending :: rest => (.pending, rest)
  | .ready chunk :: rest => (.ready (.chunk chunk), rest)

def bytes : Deliveries → List UInt8
  | [] => []
  | .pending :: rest => bytes rest
  | .ready chunk :: rest => chunk ++ bytes rest

def Within (config : SseConfig) (deliveries : Deliveries) : Prop :=
  ∀ chunk, .ready chunk ∈ deliveries → chunk.length ≤ config.maxChunkBytes

end Deliveries

namespace SseStream

variable {config : SseConfig}

def Idle (stream : SseStream Deliveries) : Prop :=
  stream.decoder.pending = none ∧ stream.decoder.terminal = false

def remaining (config : SseConfig) (stream : SseStream Deliveries) : List SseItem :=
  stream.decoder.itemsFrom config (stream.unread ++ stream.upstream.bytes)

def calls (config : SseConfig) : PollNext (SseStream Deliveries) SseItem := fun stream =>
  (stream.pollNext config Deliveries.poll).call

variable {stream : SseStream Deliveries}

theorem yields_of_terminal
    (nothing : stream.decoder.pending = none) (terminal : stream.decoder.terminal = true) :
    (calls config).Yields stream [] := by
  have polled : calls config stream = (.ready none, stream) := by
    simp [calls, pollNext, nothing, terminal, Polled.call]
  exact .ended polled

/-- From an idle stream, a loop with any budget that allows a turn settles the whole. -/
theorem yields_of_leaves {items : List SseItem}
    (idle : stream.Idle) (leaves : ∀ bytes chunks, (calls config).Leaves
      (stream.pollLoop config Deliveries.poll (bytes + 1) (chunks + 1)).call items) :
    (calls config).Yields stream items := by
  apply Leaves.yields
  have settled := leaves (config.maxBytesPerPoll - 1) (config.maxChunksPerPoll - 1)
  rw [Nat.sub_add_cancel config.bytesPerPollPositive,
    Nat.sub_add_cancel config.chunksPerPollPositive] at settled
  simpa [calls, pollNext, idle.1, idle.2] using settled

theorem remaining_byte {byte : UInt8} {rest : List UInt8} (unread : stream.unread = byte :: rest) :
    let next := stream.afterByte config byte rest
    stream.remaining config = next.decoder.pending.toList ++
      if next.decoder.terminal then [] else next.taken.remaining config := by
  simp only [remaining, afterByte, taken, unread, List.cons_append, SseDecoder.itemsFrom]
  congr 1
  split
  · rfl
  · simp only [*]

theorem leaves_of_pending {item : SseItem} {later : List SseItem}
    (pending : stream.decoder.pending = some item)
    (yields : (calls config).Yields stream.taken later) :
    (calls config).Leaves stream.takePending.call (item :: later) := by
  simp only [takePending, Polled.call, pending]
  exact .ready yields

def Settles (config : SseConfig) (stream : SseStream Deliveries) : Prop :=
  stream.Idle → ∀ bytes chunks, (calls config).Leaves
    (stream.pollLoop config Deliveries.poll bytes chunks).call (stream.remaining config)

theorem Settles.yields (settles : stream.Settles config)
    (idle : stream.Idle) : (calls config).Yields stream (stream.remaining config) :=
  yields_of_leaves idle fun bytes chunks => settles idle (bytes + 1) (chunks + 1)

theorem leaves_of_byte {byte : UInt8} {rest : List UInt8} (unread : stream.unread = byte :: rest)
    (settles : ∀ decoder, Settles config ⟨decoder, rest, stream.upstream⟩)
    (bytes chunks : Nat) : (calls config).Leaves
      (stream.pollLoop config Deliveries.poll (bytes + 1) chunks).call
      (stream.remaining config) := by
  rw [pollLoop_byte unread, remaining_byte unread]
  simp only [Polled.call_after]
  generalize processed : stream.afterByte config byte rest = next
  have goesOn : next.decoder.terminal = false →
      ∀ decoder, Settles config { next with decoder } := by
    rw [← processed]
    intro more
    simp only [afterByte] at more ⊢
    simpa [more] using settles
  cases pending : next.decoder.pending with
  | some item =>
    refine leaves_of_pending pending ?_
    cases terminal : next.decoder.terminal with
    | true => exact yields_of_terminal rfl terminal
    | false => exact (goesOn terminal _).yields ⟨rfl, terminal⟩
  | none =>
    rw [taken_of_pending_none pending]
    cases terminal : next.decoder.terminal with
    | true => exact .ended
    | false => exact goesOn terminal _ ⟨pending, terminal⟩ bytes chunks

theorem leaves_of_poll (idle : stream.Idle)
    (unread : stream.unread = []) (within : stream.upstream.Within config)
    (settles : ∀ delivery rest, stream.upstream = delivery :: rest →
      ∀ unread, Settles config ⟨stream.decoder, unread, rest⟩)
    (bytes chunks : Nat) : (calls config).Leaves
      (stream.pollLoop config Deliveries.poll bytes (chunks + 1)).call
      (stream.remaining config) := by
  rcases stream with ⟨decoder, _, deliveries⟩
  cases unread
  match deliveries with
  | [] =>
    have polled : Deliveries.poll [] = (.ready .ended, []) := rfl
    rw [pollLoop_ended rfl polled]
    simp only [Polled.call_after, remaining, Deliveries.bytes, List.append_nil,
      SseDecoder.itemsFrom]
    cases pending : (decoder.finishEof config).pending with
    | some item => exact leaves_of_pending pending (yields_of_terminal rfl rfl)
    | none =>
      simp only [takePending, Polled.call, pending]
      exact .ended
  | .pending :: rest =>
    have polled : Deliveries.poll (.pending :: rest) = (.pending, rest) := rfl
    rw [pollLoop_pending rfl polled]
    exact .pending ((settles _ _ rfl []).yields idle)
  | .ready chunk :: rest =>
    have short : ¬ config.maxChunkBytes < chunk.length :=
      Nat.not_lt.mpr (within chunk (List.mem_cons_self ..))
    have polled : Deliveries.poll (.ready chunk :: rest) = (.ready (.chunk chunk), rest) := rfl
    rw [pollLoop_chunk rfl polled, if_neg short]
    exact settles _ _ rfl chunk idle bytes chunks

/-- A call that may take no more leaves the stream as it is, and so the next one settles
it. -/
theorem settles_of_turns
    (read : stream.Idle → stream.unread ≠ [] → ∀ bytes chunks, (calls config).Leaves
      (stream.pollLoop config Deliveries.poll (bytes + 1) chunks).call
      (stream.remaining config))
    (poll : stream.Idle → stream.unread = [] → ∀ bytes chunks, (calls config).Leaves
      (stream.pollLoop config Deliveries.poll bytes (chunks + 1)).call
      (stream.remaining config)) : stream.Settles config := by
  intro idle bytes chunks
  by_cases unread : stream.unread = []
  · have yields := yields_of_leaves idle fun bytes chunks => poll idle unread (bytes + 1) chunks
    cases chunks with
    | zero => exact pollLoop_chunks_spent unread ▸ .pending yields
    | succ chunks => exact poll idle unread bytes chunks
  · have yields := yields_of_leaves idle fun bytes chunks => read idle unread bytes (chunks + 1)
    cases bytes with
    | zero => exact pollLoop_bytes_spent unread ▸ .pending yields
    | succ bytes => exact read idle unread bytes chunks

/-- By induction on the rest of the chunk: what the body delivers after it settles. -/
theorem settles_of_later {deliveries : Deliveries} (within : deliveries.Within config)
    (later : ∀ delivery rest, deliveries = delivery :: rest →
      ∀ unread decoder, Settles config ⟨decoder, unread, rest⟩)
    (unread : List UInt8) (decoder : SseDecoder) :
    Settles config ⟨decoder, unread, deliveries⟩ := by
  induction unread generalizing decoder with
  | nil =>
    refine settles_of_turns (fun _ some => absurd rfl some) fun idle _ => ?_
    exact leaves_of_poll idle rfl within fun delivery rest split unread =>
      later delivery rest split unread decoder
  | cons byte rest induction =>
    exact settles_of_turns (fun _ _ => leaves_of_byte rfl induction) fun _ none => nomatch none

theorem settles (deliveries : Deliveries) (within : deliveries.Within config) :
    ∀ unread decoder, Settles config ⟨decoder, unread, deliveries⟩ := by
  induction deliveries with
  | nil => exact settles_of_later within fun _ _ split => nomatch split
  | cons delivery deliveries induction =>
    refine settles_of_later within ?_
    rintro _ _ ⟨⟩
    exact induction fun chunk member => within chunk (List.mem_cons_of_mem _ member)

/-- However the body is delivered, the decoder yields what it yields byte by byte. -/
theorem yields_itemsFrom (deliveries : Deliveries) (within : deliveries.Within config) :
    (calls config).Yields (withConfig deliveries)
      (SseDecoder.withConfig.itemsFrom config deliveries.bytes) :=
  (settles deliveries within [] .withConfig).yields ⟨rfl, rfl⟩

end SseStream

end Philo
