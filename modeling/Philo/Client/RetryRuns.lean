import Philo.Client.RetrySafety

/-! The retry guarantees over whole runs of a call. -/

namespace Philo

open CallLog Relation

/-! ## The invariant of a call -/

def Point.Admits (policies : CallPolicies) (phase : Phase) (attempt : UInt32)
    (delivered : Bool) : Point → Prop
  | .stopped => True
  | .idle => attempt ≠ 0
  | .reading .. => attempt ≠ 0 ∧ phase.isLive = true
  | .opening => attempt ≠ 0 ∧ phase.isLive = true ∧ delivered = false
  | .waiting number .. => phase.isLive = true ∧ delivered = false ∧
      number.toNat = attempt.toNat + 1 ∧ number.toNat ≤ policies.retries.maxAttempts.toNat

section Points

variable {policies : CallPolicies} {phase : Phase} {attempt : UInt32} {delivered : Bool}
  {point : Point}

theorem Point.Admits.isLive (admits : point.Admits policies phase attempt delivered)
    (busy : point.isBusy = true) : phase.isLive = true := by
  cases point with
  | idle | stopped => cases busy
  | reading => exact admits.2
  | opening => exact admits.2.1
  | waiting => exact admits.1

theorem Point.Admits.started (admits : point.Admits policies phase attempt delivered)
    (settled : point.isSettled = true) : attempt ≠ 0 := by
  cases point with
  | waiting | stopped => cases settled
  | idle => exact admits
  | reading => exact admits.1
  | opening => exact admits.1

end Points

structure Paced (policies : CallPolicies) (call : Call) : Prop where
  written : ∃ waited, RetryLog policies call.lifecycle.deadline call.log call.attempt
    call.delivered waited ∧
      (call.phase.isLive = true → waited = call.totalWaited + call.point.delay)
  unpolled : call.phase = .unpolled →
    call.log = [] ∧ call.attempt = 0 ∧ call.delivered = false ∧ call.totalWaited = 0 ∧
      call.point = .stopped
  representable : ∀ deadline ∈ call.lifecycle.deadline, deadline ≤ maxInstant
  admits : call.point.Admits policies call.phase call.attempt call.delivered

section Moves

variable {policies : CallPolicies} {call : Call}

theorem polled_of_isLive {phase : Phase} (live : phase.isLive = true) : phase ≠ .unpolled := by
  rintro rfl
  cases live

theorem Paced.append (paced : Paced policies call) (polled : call.phase ≠ .unpolled)
    {entries : CallLog} (quiet : ∀ entry ∈ entries, entry.2.isQuiet = true) :
    Paced policies { call with log := call.log ++ entries } := by
  rcases paced.written with ⟨waited, written, pending⟩
  exact ⟨⟨waited, written.append quiet, pending⟩, fun isUnpolled => absurd isUnpolled polled,
    paced.representable, paced.admits⟩

theorem Paced.observe (paced : Paced policies call) (polled : call.phase ≠ .unpolled)
    {kinds : List LifecycleEventKind} (quiet : ∀ kind ∈ kinds, kind.isQuiet = true) :
    Paced policies (call.observe kinds) :=
  paced.append polled (List.forall_mem_map.mpr quiet)

theorem Paced.stop (paced : Paced policies call) (terminal : Bool)
    (cancelledAt : Option Instant) {phase : Phase} (polled : phase ≠ .unpolled)
    (ended : phase.isLive = false) :
    Paced policies { call with point := .stopped, terminal, cancelledAt, phase } := by
  rcases paced.written with ⟨waited, written, _⟩
  refine ⟨⟨waited, written, fun live => ?_⟩, fun isUnpolled => absurd isUnpolled polled,
    paced.representable, trivial⟩
  exact absurd (ended.symm.trans live) (by simp)

theorem isQuiet_ofTerminalError (error : LlmError) (partialOutput : Bool) :
    ∀ kind ∈ [LifecycleEventKind.ofTerminalError error partialOutput],
      kind.isQuiet = true := by
  intro kind member
  rw [List.mem_singleton.mp member]
  cases error <;> rfl

theorem Paced.fail (paced : Paced policies call) (error : LlmError) :
    Paced policies (call.fail error) := by
  unfold Call.fail
  split
  · exact (paced.stop true call.cancelledAt (by simp) rfl).observe (by simp)
      (isQuiet_ofTerminalError error false)
  · next stream _ =>
      have stopped := paced.stop true call.cancelledAt
        (show Phase.streaming { stream with terminal := true } ≠ .unpolled by simp) rfl
      have observed := stopped.observe (by simp)
        (isQuiet_ofTerminalError error stream.partialOutput)
      exact observed.append (by simp [Call.observe]) (by simp [LogEntry.isQuiet])
  · exact paced
  · exact paced
  · exact paced

theorem Paced.dropStream (paced : Paced policies call) (stream : StreamState) :
    Paced policies (call.dropStream stream) := by
  simp only [Call.dropStream]
  split
  · exact (paced.stop true _ (by simp) rfl).observe (by simp) (by simp [LifecycleEventKind.isQuiet])
  · exact paced.stop call.terminal call.cancelledAt (by simp) rfl

theorem Paced.begun (paced : Paced policies call) (unpolled : call.phase = .unpolled)
    (deadline : Option Instant) : RetryLog policies deadline
      (call.log ++ [(call.now, .observed .requestStarted)]) call.attempt call.delivered 0 := by
  rcases paced.unpolled unpolled with ⟨emptyLog, first, undelivered, _⟩
  rw [emptyLog, first, undelivered]
  exact RetryLog.empty.note rfl

theorem Paced.schedule (paced : Paced policies call) {schedule : Call.Schedule}
    (fits : schedule.Fits policies call) (live : call.phase.isLive = true)
    (settled : call.point.isSettled = true) (due : Instant) :
    Paced policies { call.observe (schedule.kinds call.attempt) with
      point := .waiting schedule.next schedule.plan.effectiveDelay due } := by
  rcases paced.written with ⟨waited, written, pending⟩
  have settledWait := pending live
  rw [Point.delay_of_isSettled settled, Nat.add_zero] at settledWait
  subst settledWait
  refine ⟨⟨_, ?_, fun _ => rfl⟩, fun isUnpolled => absurd isUnpolled (polled_of_isLive live),
    paced.representable, live, fits.undelivered, fits.follows, fits.allowed⟩
  show RetryLog policies _ (call.log ++ ([(call.now, .observed _)] ++ [(call.now, .observed _)]))
    _ _ _
  rw [← List.append_assoc]
  refine (written.note rfl).schedule fits.totalWait ?_ schedule.next schedule.reason _ _
  exact fun limit isLimit => fits.beforeDeadline limit isLimit (paced.representable limit isLimit)

theorem Paced.resume (paced : Paced policies call) {number : UInt32} {delay : Duration}
    {due : Instant} (waiting : call.point = .waiting number delay due) :
    Paced policies ({ call with
      totalWaited := Duration.saturatingAdd call.totalWaited delay }.openAttempt number) := by
  rcases paced.written with ⟨waited, written, pending⟩
  have admits := paced.admits
  rw [waiting] at admits pending
  rcases admits with ⟨live, undelivered, follows, allowed⟩
  have isWaited : waited = call.totalWaited + delay := pending live
  have total : Duration.saturatingAdd call.totalWaited delay = waited := by
    rw [isWaited]
    refine Nat.min_eq_left (Nat.le_of_lt ?_)
    rw [← isWaited, ← written.tally.waits]
    exact Nat.lt_of_le_of_lt written.safe.totalWait (maxTotalWait_representable _)
  rw [undelivered] at written
  refine ⟨⟨waited, ?_, fun _ => total.symm⟩, fun isUnpolled => absurd isUnpolled (polled_of_isLive
    live), paced.representable, ?_, live, undelivered⟩
  · exact undelivered.symm ▸ written.start follows allowed call.now
  · rintro rfl
    simp at follows

theorem Paced.deliver (paced : Paced policies call) {stream : StreamState}
    (settled : call.point.isSettled = true) (streaming : call.phase = .streaming stream)
    (live : stream.terminal = false) (event : AssistantEvent) :
    Paced policies (call.deliver stream event) := by
  rcases paced.written with ⟨waited, written, pending⟩
  have started := paced.admits.started settled
  have isWaited := pending (by simp [streaming, Phase.isLive, live])
  rw [Point.delay_of_isSettled settled] at isWaited
  have received := written.observe call.now (notes_firstEventKinds stream event).isQuiet
  unfold Call.deliver
  split
  · refine ⟨⟨waited, (received.observe call.now ?_).deliver started call.now _, fun _ => isWaited⟩,
      by rintro ⟨⟩, paced.representable, started⟩
    simp [LifecycleEventKind.isQuiet]
  · exact ⟨⟨waited, received.deliver started call.now event, fun _ => isWaited⟩,
      by rintro ⟨⟩, paced.representable, started⟩

theorem Paced.move (paced : Paced policies call) {next : Call}
    (move : call.Move policies next) : Paced policies next := by
  rcases paced.written with ⟨waited, written, pending⟩
  cases move with
  | aside => exact ⟨paced.written, paced.unpolled, paced.representable, paced.admits⟩
  | begin unpolled lifecycle timed =>
    rcases paced.unpolled unpolled with ⟨_, _, _, unwaited, atStop⟩
    refine ⟨⟨0, paced.begun unpolled _, fun _ => ?_⟩, by rintro ⟨⟩,
      timed.elim (fun same => same ▸ paced.representable) id, ?_⟩
    · simp [Call.observe, unwaited, atStop, Point.delay]
    · simp [Call.observe, atStop, Point.Admits]
  | openFirst unpolled lifecycle timed idempotency notes =>
    rcases paced.unpolled unpolled with ⟨_, first, undelivered, unwaited, atStop⟩
    have observed := (paced.begun unpolled lifecycle.deadline).observe call.now notes.isQuiet
    rw [first, undelivered] at observed
    refine ⟨⟨0, ?_, fun _ => unwaited.symm⟩, by rintro ⟨⟩, timed,
      show (1 : UInt32) ≠ 0 by decide, rfl, undelivered⟩
    have allowed : (1 : UInt32).toNat ≤ policies.retries.maxAttempts.toNat :=
      policies.retries.attemptsPositive
    exact undelivered.symm ▸ observed.start rfl allowed call.now
  | discard unpolled =>
    refine ⟨⟨waited, written, by rintro ⟨⟩⟩, by rintro ⟨⟩,
      paced.representable, ?_⟩
    rw [(paced.unpolled unpolled).2.2.2.2]
    trivial
  | report live notes => exact paced.observe (polled_of_isLive live) notes.isQuiet
  | schedule fits live settled due => exact paced.schedule fits live settled due
  | resume waiting => exact paced.resume waiting
  | handOut opening =>
    have admits := paced.admits
    rw [opening] at admits pending
    exact ⟨⟨waited, written, fun _ => pending admits.2.1⟩, by rintro ⟨⟩,
      paced.representable, admits.1⟩
  | read live settled =>
    have isWaited := pending live
    rw [Point.delay_of_isSettled settled] at isWaited
    exact ⟨⟨waited, written, fun _ => isWaited⟩, fun isUnpolled => absurd isUnpolled
      (polled_of_isLive live), paced.representable, paced.admits.started settled, live⟩
  | deliver settled streaming live event => exact paced.deliver settled streaming live event
  | fail _ error => exact paced.fail error
  | yieldEnded streaming => exact paced.append (by simp [streaming]) (by simp [LogEntry.isQuiet])
  | dropStream => exact paced.dropStream _

theorem Paced.step {setup : CallSetup} (paced : Paced setup.policies call)
    {action : CallAction} {next : Call} (stepped : call.step setup action = some next) :
    Paced setup.policies next := by
  rcases moves_of_step paced.admits.isLive stepped with moves | ⟨_, rfl⟩
  · clear stepped
    induction moves with
    | refl => exact paced
    | tail _ move induction => exact induction.move move
  · exact paced.stop call.terminal call.cancelledAt (by simp) rfl

theorem paced_initial (policies : CallPolicies) (now : Instant) :
    Paced policies (Call.initial now) :=
  ⟨⟨0, .empty, by rintro ⟨⟩⟩, fun _ => ⟨rfl, rfl, rfl, rfl, rfl⟩,
    by simp [Call.initial], trivial⟩

end Moves

/-- Whatever the planner, the attempts, the response streams, the random samples, the
clock and the caller do, the log of a call is retry safe at every moment. -/
theorem Call.run_retrySafe (setup : CallSetup) (now : Instant) (actions : List CallAction)
    (call : Call) (ran : (Call.system setup).run (Call.initial now) actions = some call) :
    RetrySafe setup.policies call.lifecycle.deadline call.log := by
  have paced : Paced setup.policies call :=
    System.visits_invariant (fun _ _ => True) (Paced setup.policies)
      (fun _ _ _ paced _ stepped => paced.step stepped) (paced_initial _ now)
      (fun _ _ _ => trivial) ⟨actions, [], (List.append_nil actions).symm, ran⟩
  rcases paced.written with ⟨_, written, _⟩
  exact written.safe

def sampleSetup : CallSetup where
  client := ⟨.new, .standard, .new⟩
  control := ⟨none, none, none⟩
  timeout := some (.after 10000000000)

def rateLimitedRun : List CallAction :=
  [.begin (.ready ⟨none, none, .unknown, none⟩),
    .opened (.error (.httpStatus ⟨429, .http, "", none, none, .maybe, some 1000000000⟩)) 7,
    .tick 1000000000, .wake 0, .opened (.ok ()) 0, .poll 0,
    .arrive (some (.ok (.textStart 0))) 0, .poll 0,
    .arrive (some (.ok (.done .stop))) 0, .poll 0, .dropStream]

theorem rateLimitedRun_retrySafe : ∃ call,
    (Call.system sampleSetup).run (Call.initial 0) rateLimitedRun = some call ∧
      call.log.attemptsStarted = [1, 2] ∧ call.log.deliveries = [2, 2] ∧
      call.log.schedules = [(0, 1000000000)] ∧
      RetrySafe sampleSetup.policies call.lifecycle.deadline call.log := by
  have summary : ((Call.system sampleSetup).run (Call.initial 0) rateLimitedRun).map
      (fun call => (call.log.attemptsStarted, call.log.deliveries, call.log.schedules)) =
        some ([1, 2], [2, 2], [(0, 1000000000)]) := by decide
  rcases Option.map_eq_some_iff.mp summary with ⟨call, ran, seen⟩
  simp only [Prod.mk.injEq] at seen
  exact ⟨call, ran, seen.1, seen.2.1, seen.2.2,
    Call.run_retrySafe sampleSetup 0 rateLimitedRun call ran⟩

end Philo
