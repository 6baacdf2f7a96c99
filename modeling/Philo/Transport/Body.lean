import Philo.Provider.Endpoint.Audience
import Philo.Provider.Headers
import Philo.Transport.Stage

/-! Requests and responses as the transport sees them, and reading a body up to a limit. -/

namespace Philo

structure HttpRequest where
  endpoint : ResolvedEndpoint
  headers : HeaderMap
  body : List UInt8
  lifecycle : RequestLifecycle
  localRequestId : LocalRequestId
  redirectPolicy : RedirectPolicy

inductive BodyItem where
  | chunk (bytes : List UInt8)
  | failed (error : LlmError)
  | ended

/-- For each item in turn, how long it takes once it is asked for. A body that never
yields another item has none from there on. -/
abbrev ByteStream := Nat → Option (Duration × BodyItem)

structure HttpResponse where
  status : UInt16
  headers : List (HeaderName × HeaderValue)
  body : ByteStream

structure LimitedBody where
  bytes : List UInt8
  truncated : Bool
  deriving DecidableEq

namespace ByteStream

def next (body : ByteStream) (index : Nat) : Async LlmError (Option (List UInt8)) := fun _ =>
  match body index with
  | none => none
  | some (after, .chunk bytes) => some (after, .ok (some bytes))
  | some (after, .failed error) => some (after, .error error)
  | some (after, .ended) => some (after, .ok none)

/-- The inner loop of `read_body_limited`, once the limit is reached: whether there is
anything more. -/
def readMore (body : ByteStream) : Nat → Nat → Async LlmError Bool
  | 0, _ => .never
  | fuel + 1, index => do
    match ← body.next index with
    | none => pure false
    | some [] => readMore body fuel (index + 1)
    | some (_ :: _) => pure true

def readUpTo (body : ByteStream) (limit : Nat) :
    Nat → Nat → List UInt8 → Async LlmError LimitedBody
  | 0, _, _ => .never
  | fuel + 1, index, bytes => do
    match ← body.next index with
    | none => pure ⟨bytes, false⟩
    | some chunk =>
      let room := limit - bytes.length
      if room < chunk.length then pure ⟨bytes ++ chunk.take room, true⟩
      else if (bytes ++ chunk).length = limit then do
        let truncated ← readMore body fuel (index + 1)
        pure ⟨bytes ++ chunk, truncated⟩
      else readUpTo body limit fuel (index + 1) (bytes ++ chunk)

def readBodyLimited (fuel : Nat) (body : ByteStream) (limit : Nat) :
    Async LlmError LimitedBody :=
  body.readUpTo limit fuel 0 []

/-! ## When reading ends -/

/-- With `room` bytes left, and from the item at `index` on, the reader knows all it
needs after `total`: the body ended, failed, or had more than that. -/
inductive Decides (body : ByteStream) : Nat → Nat → Duration → Prop where
  | ended {index room after} : body index = some (after, .ended) → Decides body index room after
  | failed {index room after error} : body index = some (after, .failed error) →
      Decides body index room after
  | beyond {index room after bytes} : body index = some (after, .chunk bytes) →
      room < bytes.length → Decides body index room after
  | within {index room after bytes later} : body index = some (after, .chunk bytes) →
      bytes.length ≤ room → Decides body (index + 1) (room - bytes.length) later →
      Decides body index room (after + later)

section Next

variable {body : ByteStream} {index : Nat} {after : Duration} {β : Type}
  (rest : Option (List UInt8) → Async LlmError β) (now : Instant)

theorem next_bind_none (item : body index = none) : (body.next index >>= rest) now = none := by
  simp [Async.bind_apply, next, item]

theorem next_bind_chunk {bytes : List UInt8} (item : body index = some (after, .chunk bytes)) :
    (body.next index >>= rest) now = Async.after after (rest (some bytes) (now + after)) := by
  simp [Async.bind_apply, next, item]

theorem next_bind_failed {error : LlmError} (item : body index = some (after, .failed error)) :
    (body.next index >>= rest) now = some (after, .error error) := by
  simp [Async.bind_apply, next, item]

theorem next_bind_ended (item : body index = some (after, .ended)) :
    (body.next index >>= rest) now = Async.after after (rest none (now + after)) := by
  simp [Async.bind_apply, next, item]

end Next

theorem readMore_full {body : ByteStream} {limit : Nat} {bytes : List UInt8}
    (full : bytes.length = limit) (fuel index : Nat) : (do
      let truncated ← readMore body fuel index
      pure ⟨bytes, truncated⟩) = body.readUpTo limit fuel index bytes := by
  cases fuel with
  | zero => rfl
  | succ fuel =>
    rw [readMore, readUpTo, Async.bind_assoc]
    refine congrArg (body.next index >>= ·) (funext fun polled => ?_)
    rcases polled with _ | _ | ⟨byte, rest⟩
    · rfl
    · simp [full]
    · simp [full]
      rfl

theorem readUpTo_succ {body : ByteStream} {limit : Nat} {bytes : List UInt8}
    (room : bytes.length ≤ limit) (fuel index : Nat) :
    body.readUpTo limit (fuel + 1) index bytes = (do
      match ← body.next index with
      | none => pure ⟨bytes, false⟩
      | some chunk =>
        if limit < (bytes ++ chunk).length then pure ⟨(bytes ++ chunk).take limit, true⟩
        else body.readUpTo limit fuel (index + 1) (bytes ++ chunk)) := by
  rw [readUpTo]
  refine congrArg (body.next index >>= ·) (funext fun polled => ?_)
  cases polled with
  | none => rfl
  | some chunk =>
    have beyond : limit - bytes.length < chunk.length ↔ limit < (bytes ++ chunk).length := by
      rw [List.length_append]
      omega
    simp only [beyond, List.take_append, List.take_of_length_le room]
    split_ifs with more full
    · rfl
    · exact readMore_full full fuel (index + 1)
    · rfl

theorem decides_of_readUpTo {body : ByteStream} {limit fuel index now total : Nat}
    {bytes : List UInt8} {result : Except LlmError LimitedBody} (room : bytes.length ≤ limit)
    (ended : body.readUpTo limit fuel index bytes now = some (total, result)) :
    Decides body index (limit - bytes.length) total := by
  induction fuel generalizing index bytes now total with
  | zero => cases ended
  | succ fuel induction =>
    rw [readUpTo_succ room] at ended
    cases item : body index with
    | none => simp [next_bind_none _ _ item] at ended
    | some polled =>
      rcases polled with ⟨after, chunk | error | _⟩
      · rw [next_bind_chunk _ _ item, Async.after_eq_some] at ended
        rcases ended with ⟨later, ended, rfl⟩
        have appended : (bytes ++ chunk).length = _ := List.length_append
        by_cases more : limit < (bytes ++ chunk).length
        · simp only [more, if_true, Async.pure_apply] at ended
          cases ended
          exact .beyond item (by omega)
        · refine .within item (by omega) ?_
          rw [Nat.sub_sub, ← appended]
          simp only [more, if_false] at ended
          exact induction (Nat.le_of_not_lt more) ended
      · rw [next_bind_failed _ _ item] at ended
        cases ended
        exact .failed item
      · rw [next_bind_ended _ _ item, Async.after_eq_some] at ended
        rcases ended with ⟨_, ⟨⟩, rfl⟩
        exact .ended item

theorem exists_readUpTo {body : ByteStream} {limit index room total : Nat}
    (decides : Decides body index room total) {bytes : List UInt8}
    (left : room = limit - bytes.length) (fits : bytes.length ≤ limit) (now : Instant) :
    ∃ fuel result, body.readUpTo limit fuel index bytes now = some (total, result) := by
  induction decides generalizing bytes now with
  | ended item => exact ⟨1, .ok ⟨bytes, false⟩, next_bind_ended _ _ item⟩
  | @failed _ _ _ error item => exact ⟨1, .error error, next_bind_failed _ _ item⟩
  | @beyond _ _ _ chunk item more =>
    refine ⟨1, .ok ⟨bytes ++ chunk.take (limit - bytes.length), true⟩, ?_⟩
    rw [readUpTo, next_bind_chunk _ _ item]
    simp [left ▸ more, Async.after]
  | @within index room after chunk later item within rest induction =>
    have appended : (bytes ++ chunk).length = _ := List.length_append
    have notMore : ¬ limit < (bytes ++ chunk).length := by omega
    rcases @induction (bytes ++ chunk) (by omega) (by omega) (now + after) with
      ⟨fuel, result, read⟩
    refine ⟨fuel + 1, result, ?_⟩
    rw [readUpTo_succ fits, next_bind_chunk _ _ item, Async.after_eq_some]
    exact ⟨later, by simpa only [notMore, if_false] using read, rfl⟩

/-- Reading a body takes as long as it takes the body to decide, and does not end if it
never does. -/
theorem exists_readBodyLimited_iff {body : ByteStream} {limit now total : Nat} :
    (∃ fuel result, readBodyLimited fuel body limit now = some (total, result)) ↔
      Decides body 0 limit total := by
  constructor
  · rintro ⟨fuel, result, read⟩
    exact decides_of_readUpTo (Nat.zero_le limit) read
  · intro decides
    exact exists_readUpTo decides rfl (Nat.zero_le limit) now

/-! ## What reading returns -/

/-- From the item at `index` on, the body has the given chunks, and then it ends or fails. -/
def Yields (body : ByteStream) (finish : Except LlmError Unit) : Nat → List (List UInt8) → Prop
  | index, [] => ∃ after, body index = some (after, match finish with
      | .ok () => .ended
      | .error error => .failed error)
  | index, chunk :: chunks =>
    (∃ after, body index = some (after, .chunk chunk)) ∧ Yields body finish (index + 1) chunks

theorem readUpTo_yields {body : ByteStream} {finish : Except LlmError Unit}
    {index fuel limit : Nat} {chunks : List (List UInt8)} {bytes : List UInt8}
    (yields : body.Yields finish index chunks) (enough : chunks.length < fuel)
    (room : bytes.length ≤ limit) (now : Instant) :
    ∃ total, body.readUpTo limit fuel index bytes now = some (total,
      if limit < (bytes ++ chunks.flatten).length
      then .ok ⟨(bytes ++ chunks.flatten).take limit, true⟩
      else finish.map fun _ => ⟨bytes ++ chunks.flatten, false⟩) := by
  induction chunks generalizing index fuel bytes now with
  | nil =>
    rcases yields with ⟨after, item⟩
    rcases Nat.exists_eq_add_of_lt enough with ⟨fuel, rfl⟩
    rw [List.flatten_nil, List.append_nil, if_neg (Nat.not_lt.mpr room)]
    cases finish with
    | ok => exact ⟨_, next_bind_ended _ _ item⟩
    | error error => exact ⟨_, next_bind_failed _ _ item⟩
  | cons chunk chunks induction =>
    rcases yields with ⟨⟨after, item⟩, rest⟩
    cases fuel with
    | zero => cases enough
    | succ fuel =>
      rw [readUpTo_succ room, next_bind_chunk _ _ item, List.flatten_cons, ← List.append_assoc]
      by_cases more : limit < (bytes ++ chunk).length
      · have beyond : limit < (bytes ++ chunk ++ chunks.flatten).length := by
          rw [List.length_append]
          omega
        refine ⟨after, ?_⟩
        rw [if_pos beyond, List.take_append_of_le_length (Nat.le_of_lt more)]
        simp only [more, if_true]
        rfl
      · rcases induction rest (Nat.lt_of_succ_lt_succ enough) (Nat.le_of_not_lt more)
          (now + after) with ⟨total, read⟩
        refine ⟨after + total, ?_⟩
        simp only [more, if_false, read, Async.after, Option.map_some]

/-- What is read of a body without an error is the start of its bytes, however they are cut
into chunks. An error is returned unless the limit was passed before it. -/
theorem readBodyLimited_exact (body : ByteStream) (limit : Nat) (chunks : List (List UInt8))
    {fuel : Nat} (enough : chunks.length < fuel) (now : Instant) :
    (body.Yields (.ok ()) 0 chunks → ∃ total, readBodyLimited fuel body limit now =
      some (total, .ok ⟨chunks.flatten.take limit, limit < chunks.flatten.length⟩)) ∧
    ∀ error, body.Yields (.error error) 0 chunks → chunks.flatten.length ≤ limit →
      ∃ total, readBodyLimited fuel body limit now = some (total, .error error) := by
  have room : ([] : List UInt8).length ≤ limit := Nat.zero_le limit
  refine ⟨fun yields => ?_, fun error yields within => ?_⟩
  · rcases readUpTo_yields yields enough room now with ⟨total, read⟩
    refine ⟨total, read.trans ?_⟩
    rw [List.nil_append]
    by_cases more : limit < chunks.flatten.length
    · simp only [more, if_true, decide_true]
    · simp only [more, if_false, decide_false, List.take_of_length_le (Nat.le_of_not_lt more)]
      rfl
  · rcases readUpTo_yields yields enough room now with ⟨total, read⟩
    refine ⟨total, read.trans ?_⟩
    rw [List.nil_append, if_neg (Nat.not_lt.mpr within)]
    rfl

theorem readBodyLimited_cut : ∃ total, readBodyLimited 4
    (fun index => some (1, [BodyItem.chunk [1], .chunk [], .chunk [2, 3]].getD index .ended)) 2 0 =
    some (total, .ok ⟨[1, 2], true⟩) :=
  (readBodyLimited_exact _ 2 [[1], [], [2, 3]] (by decide) 0).1
    ⟨⟨1, rfl⟩, ⟨1, rfl⟩, ⟨1, rfl⟩, 1, rfl⟩

end ByteStream

end Philo
