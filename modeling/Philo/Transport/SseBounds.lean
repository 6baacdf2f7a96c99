import Philo.Transport.Sse

/-! What the decoder may hold and what one call may take, for every upstream: the buffers
stay within the limits, a failure empties them, a call is bounded by its budgets, and one
that is not ready has made sure that it will be called again. -/

namespace Philo

namespace SseDecoder

/-! ## The buffers -/

def bufferedBytes (decoder : SseDecoder) : Nat :=
  (decoder.dataLines.map Text.len).sum + decoder.line.length

/-- Everything in the buffers has been counted, and the counts are within the limits. The
count of bytes stops at the largest `usize`. -/
structure Within (config : SseConfig) (decoder : SseDecoder) : Prop where
  lineBytes : decoder.line.length ≤ config.maxLineBytes
  counted : min decoder.bufferedBytes (2 ^ 64 - 1) ≤ decoder.eventBytes
  eventBytes : decoder.eventBytes ≤ config.maxEventBytes
  fields : ∀ limit ∈ config.maxFieldsPerEvent, decoder.fieldCount ≤ limit

structure Bounded (config : SseConfig) (decoder : SseDecoder) : Prop where
  within : decoder.terminal = false → decoder.Within config
  emptied : decoder.terminal = true → decoder.line = [] ∧ decoder.dataLines = []

variable {config : SseConfig} {decoder : SseDecoder}

theorem Within.congr {other : SseDecoder} (within : decoder.Within config)
    (sameLine : other.line = decoder.line) (sameData : other.dataLines = decoder.dataLines)
    (sameBytes : other.eventBytes = decoder.eventBytes)
    (sameFields : other.fieldCount = decoder.fieldCount) : other.Within config where
  lineBytes := sameLine ▸ within.lineBytes
  counted := by
    rw [bufferedBytes, sameLine, sameData, sameBytes]
    exact within.counted
  eventBytes := sameBytes ▸ within.eventBytes
  fields := sameFields ▸ within.fields

theorem Bounded.withSawCr (bounded : decoder.Bounded config) (sawCr : Bool) :
    ({ decoder with sawCr } : SseDecoder).Bounded config :=
  ⟨fun goesOn => (bounded.within goesOn).congr rfl rfl rfl rfl, bounded.emptied⟩

theorem Bounded.withPending (bounded : decoder.Bounded config) (pending : Option SseItem) :
    ({ decoder with pending } : SseDecoder).Bounded config :=
  ⟨fun goesOn => (bounded.within goesOn).congr rfl rfl rfl rfl, bounded.emptied⟩

theorem bounded_fail (error : SseError) : (decoder.fail error).Bounded config :=
  ⟨nofun, fun _ => ⟨rfl, rfl⟩⟩

theorem Within.bounded (within : decoder.Within config) (goesOn : decoder.terminal = false) :
    decoder.Bounded config :=
  ⟨fun _ => within, fun terminal => absurd (goesOn.symm.trans terminal) (by decide)⟩

theorem within_dispatchEvent (noLine : decoder.line = []) :
    decoder.dispatchEvent.Within config where
  lineBytes := by simp [dispatchEvent, noLine]
  counted := by simp [dispatchEvent, bufferedBytes, noLine]
  eventBytes := Nat.zero_le _
  fields _ _ := Nat.zero_le _

theorem len_splitField (line : String) : Text.len (splitField line).2 ≤ Text.len line := by
  have stripped (value : String) :
      Text.len ((Text.stripStart value " ").getD value) ≤ Text.len value := by
    cases found : Text.stripStart value " " with
    | none => exact le_rfl
    | some rest => exact Text.len_of_stripStart found
  unfold splitField
  cases split : Text.splitOnce line ':' with
  | none => exact (stripped "").trans (Nat.zero_le _)
  | some parts => exact (stripped parts.2).trans (Text.len_of_splitOnce split)

theorem within_setField {field value : String} {taken : Nat} (noLine : decoder.line = [])
    (room : min ((decoder.dataLines.map Text.len).sum + taken) (2 ^ 64 - 1) ≤ decoder.eventBytes)
    (short : Text.len value ≤ taken) (eventBytes : decoder.eventBytes ≤ config.maxEventBytes)
    (fields : ∀ limit ∈ config.maxFieldsPerEvent, decoder.fieldCount ≤ limit) :
    (decoder.setField field value).Within config := by
  have smaller : min decoder.bufferedBytes (2 ^ 64 - 1) ≤ decoder.eventBytes := by
    simp only [bufferedBytes, noLine, List.length_nil]
    omega
  have before : decoder.Within config := ⟨by simp [noLine], smaller, eventBytes, fields⟩
  unfold setField
  split_ifs
  · refine ⟨by simp [noLine], ?_, eventBytes, fields⟩
    simp only [bufferedBytes, noLine, List.map_append, List.sum_append, List.map_singleton,
      List.sum_singleton, List.length_nil]
    omega
  all_goals exact before.congr rfl rfl rfl rfl

theorem terminal_setField (field value : String) :
    (decoder.setField field value).terminal = decoder.terminal := by
  unfold setField
  split_ifs <;> rfl

theorem bounded_readField {line : String} {taken : Nat} (goesOn : decoder.terminal = false)
    (noLine : decoder.line = [])
    (room : min ((decoder.dataLines.map Text.len).sum + taken) (2 ^ 64 - 1) ≤ decoder.eventBytes)
    (size : Text.len line = taken) (eventBytes : decoder.eventBytes ≤ config.maxEventBytes) :
    (decoder.readField config line).Bounded config := by
  simp only [readField]
  cases found : config.maxFieldsPerEvent.filter (· < saturatingAdd decoder.fieldCount 1) with
  | some limit => exact bounded_fail _
  | none =>
    have fields : ∀ limit ∈ config.maxFieldsPerEvent,
        saturatingAdd decoder.fieldCount 1 ≤ limit := by
      intro limit isLimit
      have small := Option.filter_eq_none_iff.mp found limit isLimit
      simpa using small
    have within := @within_setField config
      { decoder with fieldCount := saturatingAdd decoder.fieldCount 1 } (splitField line).1
      (splitField line).2 taken noLine room (size ▸ len_splitField line) eventBytes fields
    exact within.bounded ((terminal_setField _ _).trans goesOn)

theorem bounded_finishLine (within : decoder.Within config) (goesOn : decoder.terminal = false) :
    (decoder.finishLine config).Bounded config := by
  have room := within.counted
  simp only [finishLine]
  split_ifs
  · exact (within_dispatchEvent rfl).bounded goesOn
  · cases decoded : Text.fromUtf8 decoder.line with
    | none => exact bounded_fail _
    | some line =>
      simp only
      split_ifs
      · refine Within.bounded ⟨Nat.zero_le _, ?_, within.eventBytes, within.fields⟩ goesOn
        simp only [bufferedBytes, List.length_nil] at room ⊢
        omega
      · exact bounded_readField goesOn rfl room (Text.len_of_fromUtf8 decoded)
          within.eventBytes

theorem within_count (within : decoder.Within config)
    (room : saturatingAdd decoder.eventBytes 1 ≤ config.maxEventBytes) :
    ({ decoder with eventBytes := saturatingAdd decoder.eventBytes 1 } :
      SseDecoder).Within config := by
  refine ⟨within.lineBytes, ?_, room, within.fields⟩
  have counted := within.counted
  simp only [bufferedBytes, saturatingAdd] at counted ⊢
  omega

theorem counted_push (byte : UInt8) (within : decoder.Within config) :
    min (bufferedBytes { decoder with line := decoder.line ++ [byte] }) (2 ^ 64 - 1) ≤
      saturatingAdd decoder.eventBytes 1 := by
  have counted := within.counted
  simp only [bufferedBytes, List.length_append, List.length_singleton, saturatingAdd]
    at counted ⊢
  omega

theorem bounded_countByte (within : decoder.Within config) (goesOn : decoder.terminal = false)
    (byte : UInt8) : (decoder.countByte config byte).Bounded config := by
  simp only [countByte]
  split_ifs with exceeds isReturn isFeed long
  · exact bounded_fail _
  · exact (bounded_finishLine (within_count within (Nat.not_lt.mp exceeds)) goesOn).withSawCr true
  · exact bounded_finishLine (within_count within (Nat.not_lt.mp exceeds)) goesOn
  · exact bounded_fail _
  · have pushed := counted_push byte within
    exact Within.bounded ⟨Nat.not_lt.mp long, pushed, Nat.not_lt.mp exceeds, within.fields⟩ goesOn

theorem bounded_processByte (within : decoder.Within config) (goesOn : decoder.terminal = false)
    (byte : UInt8) : (decoder.processByte config byte).Bounded config := by
  have unset : ({ decoder with sawCr := false } : SseDecoder).Within config :=
    within.congr rfl rfl rfl rfl
  unfold processByte
  split_ifs
  · exact unset.bounded goesOn
  · exact bounded_countByte unset goesOn byte

def ErrorIsLast (decoder : SseDecoder) : Prop :=
  ∀ error, decoder.pending = some (.error error) → decoder.terminal = true

theorem errorIsLast_finishLine (noItem : decoder.pending = none) :
    (decoder.finishLine config).ErrorIsLast := by
  simp only [finishLine]
  split_ifs
  · intro error isError
    simp only [dispatchEvent, noItem] at isError
    split_ifs at isError
    cases isError
  · split
    · exact fun _ _ => rfl
    · split_ifs
      · intro error isError
        cases noItem.symm.trans isError
      · simp only [readField]
        split
        · exact fun _ _ => rfl
        · intro error isError
          unfold setField at isError
          split_ifs at isError <;> cases noItem.symm.trans isError

theorem errorIsLast_processByte (noItem : decoder.pending = none) (byte : UInt8) :
    (decoder.processByte config byte).ErrorIsLast := by
  simp only [processByte, countByte]
  split_ifs
  · exact fun _ isError => nomatch noItem.symm.trans isError
  · exact fun _ _ => rfl
  · exact @errorIsLast_finishLine config
      { decoder with sawCr := false, eventBytes := saturatingAdd decoder.eventBytes 1 } noItem
  · exact @errorIsLast_finishLine config
      { decoder with sawCr := false, eventBytes := saturatingAdd decoder.eventBytes 1 } noItem
  · exact fun _ _ => rfl
  · exact fun _ isError => nomatch noItem.symm.trans isError

/-- A line that is not empty ends all, or completes no event. -/
theorem finishLine_of_nonempty (notEmpty : decoder.line.isEmpty = false) :
    (decoder.finishLine config).terminal = true ∨
      (decoder.finishLine config).pending = decoder.pending ∧
        (decoder.finishLine config).line = [] := by
  simp only [finishLine, notEmpty, Bool.false_eq_true, if_false]
  split
  · exact .inl rfl
  · split_ifs
    · exact .inr ⟨rfl, rfl⟩
    · simp only [readField]
      split
      · exact .inl rfl
      · right
        unfold setField
        split_ifs <;> exact ⟨rfl, rfl⟩

theorem emptied_finishEof (within : decoder.Within config) (goesOn : decoder.terminal = false)
    (noItem : decoder.pending = none) :
    (decoder.finishEof config).line = [] ∧ (decoder.finishEof config).dataLines = [] := by
  simp only [finishEof]
  cases empty : decoder.line.isEmpty with
  | true =>
    simp only [if_true, noItem, goesOn, Option.isNone_none, and_self]
    exact ⟨List.isEmpty_iff.mp empty, rfl⟩
  | false =>
    simp only [Bool.false_eq_true, if_false]
    have finished := @finishLine_of_nonempty config decoder empty
    cases terminal : (decoder.finishLine config).terminal with
    | true =>
      simp only [Bool.true_eq_false, and_false, if_false]
      exact (bounded_finishLine within goesOn).emptied terminal
    | false =>
      rcases finished.resolve_left (by simp [terminal]) with ⟨samePending, noLine⟩
      simp only [samePending, noItem, Option.isNone_none, and_self, if_true]
      exact ⟨noLine, rfl⟩

end SseDecoder

open SseDecoder

namespace SseStream

/-! ## One call -/

def Action.isByte : Action → Bool
  | .processed _ => true
  | _ => false

def Action.isChunk : Action → Bool
  | .polledUpstream (.ready (.chunk _)) => true
  | _ => false

variable {υ : Type} {config : SseConfig} {pollUpstream : υ → Poll BodyItem × υ}

structure Sound (config : SseConfig) (bytes chunks : Nat) (polled : Polled υ) : Prop where
  noItem : polled.stream.decoder.pending = none
  bounded : polled.stream.decoder.Bounded config
  errorIsLast : ∀ error, polled.result = .ready (some (.error error)) →
    polled.stream.decoder.terminal = true
  bytesTaken : polled.actions.countP Action.isByte ≤ bytes
  chunksTaken : polled.actions.countP Action.isChunk ≤ chunks
  wakes : polled.result = .pending →
    .polledUpstream .pending ∈ polled.actions ∨ .woke ∈ polled.actions

theorem sound_takePending {stream : SseStream υ} (bounded : stream.decoder.Bounded config)
    (errorIsLast : stream.decoder.ErrorIsLast) (bytes chunks : Nat) :
    Sound config bytes chunks stream.takePending where
  noItem := rfl
  bounded := bounded.withPending none
  errorIsLast error isError := errorIsLast error (Poll.ready.inj isError)
  bytesTaken := Nat.zero_le _
  chunksTaken := Nat.zero_le _
  wakes := nofun

theorem sound_yieldNow {stream : SseStream υ} (bounded : stream.decoder.Bounded config)
    (noItem : stream.decoder.pending = none) (bytes chunks : Nat) :
    Sound config bytes chunks stream.yieldNow where
  noItem := noItem
  bounded := bounded
  errorIsLast _ isError := by cases isError
  bytesTaken := by simp [yieldNow, Action.isByte]
  chunksTaken := by simp [yieldNow, Action.isChunk]
  wakes _ := .inr (by simp [yieldNow])

theorem Sound.afterByte {bytes chunks : Nat} {later : Polled υ}
    (sound : Sound config bytes chunks later) (byte : UInt8) :
    Sound config (bytes + 1) chunks (.after (.processed byte) later) where
  noItem := sound.noItem
  bounded := sound.bounded
  errorIsLast := sound.errorIsLast
  bytesTaken := by
    have taken := sound.bytesTaken
    simp only [Polled.after, List.countP_cons]
    split <;> omega
  chunksTaken := by simpa [Polled.after, Action.isChunk] using sound.chunksTaken
  wakes pending := (sound.wakes pending).imp (List.mem_cons_of_mem _) (List.mem_cons_of_mem _)

theorem Sound.afterPoll {bytes chunks : Nat} {later : Polled υ}
    (sound : Sound config bytes chunks later) (result : Poll BodyItem) :
    Sound config bytes (chunks + 1) (.after (.polledUpstream result) later) where
  noItem := sound.noItem
  bounded := sound.bounded
  errorIsLast := sound.errorIsLast
  bytesTaken := by simpa [Polled.after, Action.isByte] using sound.bytesTaken
  chunksTaken := by
    have taken := sound.chunksTaken
    simp only [Polled.after, List.countP_cons]
    split <;> omega
  wakes pending := (sound.wakes pending).imp (List.mem_cons_of_mem _) (List.mem_cons_of_mem _)

theorem sound_byte {stream : SseStream υ} {byte : UInt8} {rest : List UInt8} {bytes chunks : Nat}
    (unread : stream.unread = byte :: rest) (goesOn : stream.decoder.terminal = false)
    (noItem : stream.decoder.pending = none) (within : stream.decoder.Within config)
    (later : ∀ next : SseStream υ, next.decoder.terminal = false → next.decoder.pending = none →
      next.decoder.Within config →
        Sound config bytes chunks (next.pollLoop config pollUpstream bytes chunks)) :
    Sound config (bytes + 1) chunks
      (stream.pollLoop config pollUpstream (bytes + 1) chunks) := by
  rw [pollLoop_byte unread]
  have bounded : (stream.afterByte config byte rest).decoder.Bounded config :=
    bounded_processByte within goesOn byte
  have errorIsLast : (stream.afterByte config byte rest).decoder.ErrorIsLast :=
    errorIsLast_processByte noItem byte
  generalize stream.afterByte config byte rest = next at bounded errorIsLast
  apply Sound.afterByte
  cases pending : next.decoder.pending with
  | some item => exact sound_takePending bounded errorIsLast bytes chunks
  | none =>
    simp only [Option.isSome_none, Bool.false_eq_true, if_false]
    cases terminal : next.decoder.terminal with
    | true =>
      refine ⟨pending, bounded, fun _ isError => ?_, Nat.zero_le _, Nat.zero_le _,
        fun isPending => ?_⟩
      · cases isError
      · cases isPending
    | false => exact later next terminal pending (bounded.within terminal)

theorem sound_poll {stream : SseStream υ} {bytes chunks : Nat} (unread : stream.unread = [])
    (goesOn : stream.decoder.terminal = false) (noItem : stream.decoder.pending = none)
    (within : stream.decoder.Within config)
    (later : ∀ next : SseStream υ, next.decoder = stream.decoder →
      Sound config bytes chunks (next.pollLoop config pollUpstream bytes chunks)) :
    Sound config bytes (chunks + 1)
      (stream.pollLoop config pollUpstream bytes (chunks + 1)) := by
  have failed (upstream : υ) (error : SseError) : Sound config bytes chunks
      (fail { stream with upstream } error).takePending :=
    sound_takePending (bounded_fail error) (fun _ _ => rfl) bytes chunks
  rcases polled : pollUpstream stream.upstream with ⟨result, upstream⟩
  match result with
  | .ready (.chunk chunk) =>
    rw [pollLoop_chunk unread polled]
    apply Sound.afterPoll
    split_ifs
    · exact failed upstream _
    · exact later _ rfl
  | .ready (.failed error) =>
    rw [pollLoop_failed unread polled]
    exact (failed upstream _).afterPoll _
  | .ready .ended =>
    rw [pollLoop_ended unread polled]
    have emptied := emptied_finishEof within goesOn noItem
    have ended : (stream.decoder.finishEof config).terminal = true := rfl
    have bounded : (stream.decoder.finishEof config).Bounded config :=
      ⟨fun goesOn => absurd (ended.symm.trans goesOn) (by decide), fun _ => emptied⟩
    exact (sound_takePending bounded (fun _ _ => ended) bytes chunks).afterPoll _
  | .pending =>
    rw [pollLoop_pending unread polled]
    refine ⟨noItem, within.bounded goesOn, fun _ isError => ?_, ?_, ?_, fun _ => .inl ?_⟩
    · cases isError
    all_goals simp [Polled.after, Action.isByte, Action.isChunk]

theorem sound_pollLoop {stream : SseStream υ} (goesOn : stream.decoder.terminal = false)
    (noItem : stream.decoder.pending = none) (within : stream.decoder.Within config)
    (bytes chunks : Nat) :
    Sound config bytes chunks (stream.pollLoop config pollUpstream bytes chunks) := by
  induction total : bytes + chunks using Nat.strong_induction_on
    generalizing bytes chunks stream with
  | _ total induction =>
    cases unread : stream.unread with
    | cons byte rest =>
      cases bytes with
      | zero =>
        rw [pollLoop_bytes_spent (by simp [unread])]
        exact sound_yieldNow (within.bounded goesOn) noItem _ _
      | succ bytes =>
        refine sound_byte unread goesOn noItem within fun next goesOn noItem within => ?_
        exact induction _ (by omega) goesOn noItem within bytes chunks rfl
    | nil =>
      cases chunks with
      | zero =>
        rw [pollLoop_chunks_spent unread]
        exact sound_yieldNow (within.bounded goesOn) noItem _ _
      | succ chunks =>
        refine sound_poll unread goesOn noItem within fun next same => ?_
        exact induction _ (by omega) (same ▸ goesOn) (same ▸ noItem) (same ▸ within) bytes
          chunks rfl

/-! ## All calls -/

structure Rests (config : SseConfig) (stream : SseStream υ) : Prop where
  noItem : stream.decoder.pending = none
  bounded : stream.decoder.Bounded config

theorem Rests.sound {stream : SseStream υ} (rests : stream.Rests config)
    (pollUpstream : υ → Poll BodyItem × υ) :
    Sound config config.maxBytesPerPoll config.maxChunksPerPoll
      (stream.pollNext config pollUpstream) := by
  simp only [pollNext, rests.noItem, Option.isSome_none, Bool.false_eq_true, if_false]
  cases terminal : stream.decoder.terminal with
  | true =>
    refine ⟨rests.noItem, rests.bounded, fun _ isError => ?_, Nat.zero_le _, Nat.zero_le _,
      fun isPending => ?_⟩
    · cases isError
    · cases isPending
  | false => exact sound_pollLoop terminal rests.noItem (rests.bounded.within terminal) _ _

def afterPolls (config : SseConfig) (pollUpstream : υ → Poll BodyItem × υ)
    (stream : SseStream υ) : Nat → SseStream υ
  | 0 => stream
  | polls + 1 => ((afterPolls config pollUpstream stream polls).pollNext config pollUpstream).stream

theorem rests_withConfig (upstream : υ) : (withConfig upstream).Rests config where
  noItem := rfl
  bounded :=
    Within.bounded ⟨Nat.zero_le _, Nat.zero_le _, Nat.zero_le _, fun _ _ => Nat.zero_le _⟩ rfl

theorem rests_afterPolls (pollUpstream : υ → Poll BodyItem × υ) (upstream : υ) (polls : Nat) :
    (afterPolls config pollUpstream (withConfig upstream) polls).Rests config := by
  induction polls with
  | zero => exact rests_withConfig upstream
  | succ polls induction =>
    have sound := induction.sound pollUpstream
    exact ⟨sound.noItem, sound.bounded⟩

theorem terminal_afterPolls {pollUpstream : υ → Poll BodyItem × υ} {stream : SseStream υ}
    {first : Nat} (noItem : (afterPolls config pollUpstream stream first).decoder.pending = none)
    (terminal : (afterPolls config pollUpstream stream first).decoder.terminal = true)
    {later : Nat} (order : first ≤ later) :
    afterPolls config pollUpstream stream later = afterPolls config pollUpstream stream first := by
  induction later, order using Nat.le_induction with
  | base => rfl
  | succ later _ induction => simp [afterPolls, induction, pollNext, noItem, terminal]

/-- For every upstream and after any number of calls: the buffers of a decoder that goes on
are within the limits, those of one that has failed are empty, and the next call takes no
more than its budgets and is woken unless the upstream is not ready. The buffers are live
memory, so that their bytes can be addressed. -/
theorem resources_bounded (config : SseConfig) (pollUpstream : υ → Poll BodyItem × υ)
    (upstream : υ) (polls : Nat) :
    let stream := afterPolls config pollUpstream (withConfig upstream)
    let decoder := (stream polls).decoder
    let polled := (stream polls).pollNext config pollUpstream
    (decoder.terminal = false →
      decoder.line.length ≤ config.maxLineBytes ∧
        (decoder.bufferedBytes < 2 ^ 64 → decoder.bufferedBytes ≤ config.maxEventBytes) ∧
          ∀ limit ∈ config.maxFieldsPerEvent, decoder.fieldCount ≤ limit) ∧
    (∀ earlier < polls, ∀ error,
      ((stream earlier).pollNext config pollUpstream).result = .ready (some (.error error)) →
        decoder.line = [] ∧ decoder.dataLines = []) ∧
    polled.actions.countP Action.isByte ≤ config.maxBytesPerPoll ∧
    polled.actions.countP Action.isChunk ≤ config.maxChunksPerPoll ∧
    (polled.result = .pending →
      .polledUpstream .pending ∈ polled.actions ∨ .woke ∈ polled.actions) := by
  intro stream decoder polled
  have rests (polls : Nat) : (stream polls).Rests config :=
    rests_afterPolls pollUpstream upstream polls
  have sound := (rests polls).sound pollUpstream
  refine ⟨fun goesOn => ?_, fun earlier before error isError => ?_, sound.bytesTaken,
    sound.chunksTaken, sound.wakes⟩
  · have within := (rests polls).bounded.within goesOn
    refine ⟨within.lineBytes, fun addressable => ?_, within.fields⟩
    have counted : min decoder.bufferedBytes (2 ^ 64 - 1) ≤ decoder.eventBytes := within.counted
    have limited : decoder.eventBytes ≤ config.maxEventBytes := within.eventBytes
    omega
  · have failed := (rests earlier).sound pollUpstream
    have ended := failed.errorIsLast error isError
    have same := @terminal_afterPolls υ config pollUpstream (withConfig upstream) (earlier + 1)
      failed.noItem ended polls before
    exact (rests polls).bounded.emptied ((congrArg (·.decoder.terminal) same).trans ended)

def endlessData : Unit → Poll BodyItem × Unit := fun _ => (.ready (.chunk [100]), ())

def oneByteEach : SseConfig :=
  ⟨2, 2, some 1, 1, 1, 1, 1, by decide, by decide, by decide, by decide, by decide, by decide⟩

theorem pollNext_endlessData (decoder : SseDecoder) (goesOn : decoder.terminal = false)
    (noItem : decoder.pending = none) :
    (⟨decoder, [], ()⟩ : SseStream Unit).pollNext oneByteEach endlessData =
      let next := afterByte oneByteEach ⟨decoder, [], ()⟩ 100 []
      .after (.polledUpstream (.ready (.chunk [100]))) (.after (.processed 100)
        (if next.decoder.pending.isSome then next.takePending
        else if next.decoder.terminal then ⟨.ready none, next, []⟩
        else next.yieldNow)) := by
  have isChunk : endlessData () = (.ready (.chunk [100]), ()) := rfl
  have nothingLeft : (afterByte oneByteEach ⟨decoder, [100], ()⟩ 100 []).unread = [] := ite_self _
  rw [pollNext, noItem, goesOn]
  change pollLoop oneByteEach endlessData 1 1 _ = _
  rw [pollLoop_chunk rfl isChunk, if_neg (by decide), pollLoop_byte rfl]
  dsimp only
  rw [pollLoop_chunks_spent nothingLeft]
  rfl

/-- The third byte is one too many. -/
theorem endlessData_bounded :
    let stream := afterPolls oneByteEach endlessData (withConfig ())
    ((stream 2).decoder.terminal = false ∧ (stream 2).decoder.line = [100, 100] ∧
      (stream 2).decoder.bufferedBytes ≤ oneByteEach.maxEventBytes) ∧
    ((∃ error, ((stream 2).pollNext oneByteEach endlessData).result =
        .ready (some (.error error))) ∧
      (stream 5).decoder.line = [] ∧ (stream 5).decoder.dataLines = []) ∧
    ((stream 2).pollNext oneByteEach endlessData).actions.countP Action.isByte ≤ 1 := by
  intro stream
  have first : stream 1 =
      ⟨{ SseDecoder.withConfig with line := [100], eventBytes := 1 }, [], ()⟩ := by
    change (pollNext oneByteEach endlessData ⟨.withConfig, [], ()⟩).stream = _
    rw [pollNext_endlessData _ rfl rfl]
    rfl
  have second : stream 2 =
      ⟨{ SseDecoder.withConfig with line := [100, 100], eventBytes := 2 }, [], ()⟩ := by
    change ((stream 1).pollNext oneByteEach endlessData).stream = _
    rw [first, pollNext_endlessData _ rfl rfl]
    rfl
  have failed : ((stream 2).pollNext oneByteEach endlessData).result =
      .ready (some (.error (.limitExceeded .eventBytes 2 3 1))) := by
    rw [second, pollNext_endlessData _ rfl rfl]
    rfl
  have goesOn : (stream 2).decoder.terminal = false := congrArg (·.decoder.terminal) second
  have line : (stream 2).decoder.line = [100, 100] := congrArg (·.decoder.line) second
  have buffered : (stream 2).decoder.bufferedBytes = 2 := congrArg (·.decoder.bufferedBytes) second
  have bounded := resources_bounded oneByteEach endlessData ()
  exact ⟨⟨goesOn, line, ((bounded 2).1 goesOn).2.1 (by rw [buffered]; decide)⟩,
    ⟨⟨_, failed⟩, (bounded 5).2.1 2 (by decide) _ failed⟩, (bounded 2).2.2.1⟩

end SseStream

end Philo
