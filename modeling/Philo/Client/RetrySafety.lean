import Philo.Client.Moves

/-! Retries never show: whatever the attempts, the clock and the consumer do, the events
that a call delivers come from its last attempt, and the attempts and waits before it
stay within the policies. -/

namespace Philo

open CallLog List

structure RetrySafe (policies : CallPolicies) (deadline : Option Instant) (log : CallLog) :
    Prop where
  distinct : log.attemptsStarted.Nodup
  lastAttempt : ∀ attempt ∈ log.deliveries, log.attemptsStarted.getLast? = some attempt
  attempts : log.attemptsStarted.length ≤ policies.retries.maxAttempts.toNat
  closed : log.Pairwise fun earlier later => earlier.2.isDelivery = true → later.2.isStart = false
  totalWait : (log.schedules.map Prod.snd).sum ≤ policies.retryWait.maxTotalWait.val
  beforeDeadline : ∀ schedule ∈ log.schedules, ∀ instant ∈ deadline,
    schedule.2 + policies.retries.minimumAttemptBudget ≤ instant - schedule.1

/-! ## How a log is written -/

def LogEntry.isQuiet : LogEntry → Bool
  | .observed kind => kind.isQuiet
  | .yielded (.event _ _) => false
  | .yielded _ => true

inductive RetryLog (policies : CallPolicies) (deadline : Option Instant) :
    CallLog → UInt32 → Bool → Duration → Prop
  | empty : RetryLog policies deadline [] 0 false 0
  | note {log : CallLog} {attempt : UInt32} {delivered : Bool} {waited : Duration}
      (before : RetryLog policies deadline log attempt delivered waited)
      {entry : Instant × LogEntry} (quiet : entry.2.isQuiet = true) :
      RetryLog policies deadline (log ++ [entry]) attempt delivered waited
  | start {log : CallLog} {attempt number : UInt32} {waited : Duration}
      (before : RetryLog policies deadline log attempt false waited)
      (follows : number.toNat = attempt.toNat + 1)
      (allowed : number.toNat ≤ policies.retries.maxAttempts.toNat) (instant : Instant) :
      RetryLog policies deadline (log ++ [(instant, .observed (.attemptStarted number))])
        number false waited
  | schedule {log : CallLog} {attempt : UInt32} {delivered : Bool} {waited : Duration}
      (before : RetryLog policies deadline log attempt delivered waited)
      {instant : Instant} {delay : Duration}
      (totalWait : waited + delay ≤ policies.retryWait.maxTotalWait.val)
      (beforeDeadline : ∀ limit ∈ deadline,
        delay + policies.retries.minimumAttemptBudget ≤ limit - instant)
      (next : UInt32) (reason : RetryReason) (applied capped : Bool) :
      RetryLog policies deadline (log ++ [(instant,
        .observed (.retryScheduled attempt next reason delay applied capped))])
        attempt delivered (waited + delay)
  | deliver {log : CallLog} {attempt : UInt32} {delivered : Bool} {waited : Duration}
      (before : RetryLog policies deadline log attempt delivered waited)
      (started : attempt ≠ 0) (instant : Instant) (event : AssistantEvent) :
      RetryLog policies deadline (log ++ [(instant, .yielded (.event attempt event))])
        attempt true waited

/-- The attempts are numbered from one up to the last one, which alone delivers. -/
structure RetryTally (log : CallLog) (attempt : UInt32) (delivered : Bool)
    (waited : Duration) : Prop where
  last : attempt ≠ 0 → log.attemptsStarted.getLast? = some attempt
  count : log.attemptsStarted.length = attempt.toNat
  numbered : ∀ earlier ∈ log.attemptsStarted, earlier.toNat ≤ attempt.toNat
  undelivered : delivered = false → ∀ entry ∈ log, entry.2.isDelivery = false
  waits : (log.schedules.map Prod.snd).sum = waited

section Entries

variable {log entries : CallLog} {entry : Instant × LogEntry}

theorem CallLog.attemptsStarted_append : attemptsStarted (log ++ entries) =
    log.attemptsStarted ++ entries.attemptsStarted := filterMap_append

theorem CallLog.deliveries_append : deliveries (log ++ entries) =
    log.deliveries ++ entries.deliveries := filterMap_append

theorem CallLog.schedules_append : schedules (log ++ entries) =
    log.schedules ++ entries.schedules := filterMap_append

theorem adds_nothing (quiet : entry.2.isQuiet = true) :
    attemptsStarted [entry] = [] ∧ deliveries [entry] = [] ∧ schedules [entry] = [] ∧
      entry.2.isStart = false ∧ entry.2.isDelivery = false := by
  rcases entry with ⟨instant, kind | item⟩
  · cases kind <;> first | exact ⟨rfl, rfl, rfl, rfl, rfl⟩ | cases quiet
  · cases item <;> first | exact ⟨rfl, rfl, rfl, rfl, rfl⟩ | cases quiet

theorem mem_deliveries {attempt : UInt32} (delivered : attempt ∈ log.deliveries) :
    ∃ entry ∈ log, entry.2.isDelivery = true := by
  rcases mem_filterMap.mp delivered with ⟨⟨instant, kind | item⟩, member, isDelivery⟩
  · cases isDelivery
  · cases item with
    | event => exact ⟨_, member, rfl⟩
    | failed | ended => cases isDelivery

end Entries

namespace RetryLog

variable {policies : CallPolicies} {deadline : Option Instant} {log : CallLog}
  {attempt : UInt32} {delivered : Bool} {waited : Duration}

theorem tally (written : RetryLog policies deadline log attempt delivered waited) :
    RetryTally log attempt delivered waited := by
  induction written with
  | empty => constructor <;> simp [attemptsStarted, schedules]
  | note _ quiet induction =>
    rcases adds_nothing quiet with ⟨noStart, _, noSchedule, _, notDelivery⟩
    constructor <;> try simp only [attemptsStarted_append, schedules_append, noStart,
      noSchedule, append_nil]
    · exact induction.last
    · exact induction.count
    · exact induction.numbered
    · intro undelivered
      exact forall_mem_append.mpr
        ⟨induction.undelivered undelivered, by simpa using notDelivery⟩
    · exact induction.waits
  | start _ follows _ _ induction =>
    constructor <;> try simp only [attemptsStarted_append, schedules_append]
    · simp [attemptsStarted]
    · rw [length_append, induction.count, follows]
      rfl
    · refine forall_mem_append.mpr ⟨?_, by simp [attemptsStarted]⟩
      intro earlier member
      have bounded := induction.numbered earlier member
      omega
    · intro _
      exact forall_mem_append.mpr ⟨induction.undelivered rfl, by simp [LogEntry.isDelivery]⟩
    · simpa [schedules] using induction.waits
  | schedule _ _ _ _ _ _ _ induction =>
    constructor <;> try simp only [attemptsStarted_append, schedules_append]
    · simpa [attemptsStarted] using induction.last
    · simpa [attemptsStarted] using induction.count
    · simpa [attemptsStarted] using induction.numbered
    · intro undelivered
      exact forall_mem_append.mpr
        ⟨induction.undelivered undelivered, by simp [LogEntry.isDelivery]⟩
    · rw [map_append, sum_append, induction.waits]
      simp [schedules]
  | deliver _ _ _ _ induction =>
    constructor <;> try simp only [attemptsStarted_append, schedules_append]
    · simpa [attemptsStarted] using induction.last
    · simpa [attemptsStarted] using induction.count
    · simpa [attemptsStarted] using induction.numbered
    · simp
    · simpa [schedules] using induction.waits

theorem closed_append {entry : Instant × LogEntry} (safe : RetrySafe policies deadline log)
    (notStart : entry.2.isStart = false) : (log ++ [entry]).Pairwise fun earlier later =>
      earlier.2.isDelivery = true → later.2.isStart = false :=
  pairwise_append.mpr ⟨safe.closed, pairwise_singleton _ _,
    fun _ _ _ isEntry _ => mem_singleton.mp isEntry ▸ notStart⟩

theorem safe (written : RetryLog policies deadline log attempt delivered waited) :
    RetrySafe policies deadline log := by
  induction written with
  | empty => constructor <;> simp [attemptsStarted, deliveries, schedules]
  | note _ quiet induction =>
    rcases adds_nothing quiet with ⟨noStart, noDelivery, noSchedule, notStart, _⟩
    constructor <;> try simp only [attemptsStarted_append, deliveries_append, schedules_append,
      noStart, noDelivery, noSchedule, append_nil]
    · exact induction.distinct
    · exact induction.lastAttempt
    · exact induction.attempts
    · exact closed_append induction notStart
    · exact induction.totalWait
    · exact induction.beforeDeadline
  | start before follows allowed _ induction =>
    have tally := before.tally
    constructor <;> try simp only [attemptsStarted_append, deliveries_append, schedules_append]
    · refine nodup_append.mpr ⟨induction.distinct, by simp [attemptsStarted], ?_⟩
      rintro earlier member other isOther rfl
      have isNumber := mem_singleton.mp isOther
      have bounded := tally.numbered earlier member
      rw [isNumber] at bounded
      omega
    · intro earlier member
      rcases mem_deliveries (append_nil (deliveries _) ▸ member) with
        ⟨entry, isEntry, isDelivery⟩
      rw [tally.undelivered rfl entry isEntry] at isDelivery
      cases isDelivery
    · rw [length_append, tally.count]
      exact follows ▸ allowed
    · refine pairwise_append.mpr ⟨induction.closed, pairwise_singleton _ _, ?_⟩
      intro earlier member _ _ isDelivery
      rw [tally.undelivered rfl earlier member] at isDelivery
      cases isDelivery
    · simpa [schedules] using induction.totalWait
    · simpa [schedules] using induction.beforeDeadline
  | schedule before totalWait beforeDeadline _ _ _ _ induction =>
    constructor <;> try simp only [attemptsStarted_append, deliveries_append, schedules_append]
    · simpa [attemptsStarted] using induction.distinct
    · simpa [attemptsStarted, deliveries] using induction.lastAttempt
    · simpa [attemptsStarted] using induction.attempts
    · exact closed_append induction rfl
    · rw [map_append, sum_append, before.tally.waits]
      simpa [schedules] using totalWait
    · refine forall_mem_append.mpr ⟨induction.beforeDeadline, ?_⟩
      simpa [schedules] using beforeDeadline
  | deliver before started _ _ induction =>
    constructor <;> try simp only [attemptsStarted_append, deliveries_append, schedules_append]
    · simpa [attemptsStarted] using induction.distinct
    · refine forall_mem_append.mpr ⟨?_, ?_⟩
      · simpa [attemptsStarted] using induction.lastAttempt
      · simpa [attemptsStarted, deliveries] using before.tally.last started
    · simpa [attemptsStarted] using induction.attempts
    · exact closed_append induction rfl
    · simpa [schedules] using induction.totalWait
    · simpa [schedules] using induction.beforeDeadline

theorem append (written : RetryLog policies deadline log attempt delivered waited)
    {entries : CallLog} (quiet : ∀ entry ∈ entries, entry.2.isQuiet = true) :
    RetryLog policies deadline (log ++ entries) attempt delivered waited := by
  induction entries generalizing log with
  | nil => simpa using written
  | cons entry rest induction =>
    rw [forall_mem_cons] at quiet
    simpa using induction (written.note quiet.1) quiet.2

theorem observe (written : RetryLog policies deadline log attempt delivered waited)
    (instant : Instant) {kinds : List LifecycleEventKind}
    (quiet : ∀ kind ∈ kinds, kind.isQuiet = true) :
    RetryLog policies deadline (log ++ kinds.map fun kind => (instant, .observed kind))
      attempt delivered waited :=
  written.append (forall_mem_map.mpr quiet)

end RetryLog

end Philo
