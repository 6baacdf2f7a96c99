import Philo.Provider.Auth.CacheWaiters

/-! In a fair execution without dropped futures every call returns, provided that
no waiter misses its notification. -/

namespace Philo.Auth

variable {CallId Key : Type} [DecidableEq CallId] [DecidableEq Key]
  {requests : CallId → RefreshCall Key}

def Fair (execution : (cacheSystem requests).Execution .initial) : Prop :=
  ∀ time call, (execution.state time).runnable call = true →
    ∃ later taken, time ≤ later ∧ execution.action later = some taken ∧
      taken.call? = some call

/-- A fair execution uses up its work and comes to rest. -/
theorem Fair.exists_rest [Fintype CallId]
    {execution : (cacheSystem requests).Execution .initial} (fair : Fair execution) :
    ∃ time, ∀ call, (execution.state time).runnable call = false := by
  have lowers : ∀ time taken, execution.action time = some taken →
      taken.call?.isSome = true →
      (execution.state (time + 1)).work < (execution.state time).work := by
    intro time taken isTaken polls
    exact (transition_of_step (execution.steps time taken isTaken)).work_lt polls
  have keeps : ∀ time, (∀ taken, execution.action time = some taken →
      ¬ taken.call?.isSome = true) →
      (execution.state (time + 1)).work ≤ (execution.state time).work := by
    intro time quiet
    cases isTaken : execution.action time with
    | none => rw [execution.idles time isTaken]
    | some taken =>
      have transition := transition_of_step (execution.steps time taken isTaken)
      exact transition.work_le_of_tick (quiet taken isTaken)
  rcases execution.eventually_none World.work lowers keeps with ⟨quiet, noPolls⟩
  refine ⟨quiet, fun call => ?_⟩
  rw [← Bool.not_eq_true]
  intro runnable
  rcases fair quiet call runnable with ⟨later, taken, after, isTaken, polls⟩
  exact noPolls later after taken isTaken (by rw [polls]; rfl)

/-- Every call of a finite set returns, if no future is dropped and no `Notify`
fires while a call is about to register with it. -/
theorem everyCall_returns [Fintype CallId] (requests : CallId → RefreshCall Key)
    (execution : (cacheSystem requests).Execution .initial) (fair : Fair execution)
    (noDrop : ∀ time call, execution.action time ≠ some (.drop call))
    (inTime : ∀ time taken, execution.action time = some taken →
      RegisteredInTime (execution.state time) taken) (call : CallId) :
    ∃ time result, (execution.state time).point call = .returned result := by
  rcases fair.exists_rest with ⟨time, rest⟩
  have sound : Sound requests (execution.state time) := by
    refine execution.invariant (fun world action =>
      (∀ call, action ≠ .drop call) ∧ RegisteredInTime world action) ?_ sound_initial ?_ time
    · intro world action next sound allowed stepped
      exact sound.afterStep allowed.1 allowed.2 stepped
    · intro time taken isTaken
      refine ⟨?_, inTime time taken isTaken⟩
      rintro call rfl
      exact noDrop time call isTaken
  exact ⟨time, returned_of_rest sound.owned sound.consistent sound.served sound.undropped
    rest call⟩

/-- A finite run that ends at rest is fair if every task that can go on along the
way is polled later in the run. -/
theorem Fair.ofRun {actions : List (Action CallId)} {final : World CallId Key}
    (ran : (cacheSystem requests).run .initial actions = some final)
    (rest : ∀ call, final.runnable call = false) (polled : ∀ time, time < actions.length → ∀ call,
      (((cacheSystem requests).run .initial (actions.take time)).getD .initial).runnable
        call = true →
      ∃ later, later < actions.length ∧ time ≤ later ∧
        actions[later]?.bind Action.call? = some call) :
    Fair (System.Execution.ofRun actions ran) := by
  intro time call runnable
  by_cases during : time < actions.length
  · rcases polled time during call runnable with ⟨later, _, after, polls⟩
    rcases Option.bind_eq_some_iff.mp polls with ⟨taken, isTaken, isCall⟩
    exact ⟨later, taken, after, isTaken, isCall⟩
  · rw [System.Execution.ofRun_state_of_le ran (Nat.le_of_not_lt during), rest call] at runnable
    cases runnable

/-! ## The lost notification -/

def sharedRequest (_ : Bool) : RefreshCall Unit := ⟨(), 0, false⟩

def failedFetch : FetchResult := .error (.credential .refreshFailed)

def leadAndJoin : List (Action Bool) :=
  [.start false, .acquire false, .examine false, .start true, .acquire true, .examine true]

def publishAndNotify : List (Action Bool) :=
  [.completeFetch false failedFetch, .acquire false, .publish false, .notifyWaiters false]

/-- The second call registers with the `Notify` after it has fired. -/
def lostNotification : List (Action Bool) :=
  leadAndJoin ++ publishAndNotify ++ [.createNotified true]

def Point.isReturned : Point → Bool
  | .returned _ => true
  | _ => false

/-- The second call waits forever, although every task that can go on is polled and
the fetch completes. -/
theorem lostNotification_never_returns :
    ∃ execution : (cacheSystem sharedRequest).Execution .initial,
      Fair execution ∧ (∀ time call, execution.action time ≠ some (.drop call)) ∧
      ∀ time result, (execution.state time).point true ≠ .returned result := by
  have ran : (cacheSystem sharedRequest).run .initial lostNotification = some _ := rfl
  refine ⟨.ofRun lostNotification ran, .ofRun ran (by decide) (by decide), ?_, ?_⟩
  · intro time call isDrop
    have member := System.Execution.ofRun_action_mem isDrop
    simp [lostNotification, leadAndJoin, publishAndNotify] at member
  · have waiting := System.Execution.ofRun_forall ran
      (fun world => (world.point true).isReturned = false) (by decide)
    intro time result isReturned
    have notReturned := waiting time
    rw [isReturned] at notReturned
    cases notReturned

def timelyNotification : List (Action Bool) :=
  leadAndJoin ++ [.createNotified true] ++ publishAndNotify ++
    [.resume true, .acquire true, .examine true, .completeFetch true failedFetch,
      .acquire true, .publish true, .notifyWaiters true]

theorem timelyNotification_returns :
    ∃ execution : (cacheSystem sharedRequest).Execution .initial,
      ∀ call, ∃ time result, (execution.state time).point call = .returned result := by
  have ran : (cacheSystem sharedRequest).run .initial timelyNotification = some _ := rfl
  refine ⟨.ofRun timelyNotification ran, everyCall_returns sharedRequest _
    (.ofRun ran (by decide) (by decide)) ?_ ?_⟩
  · intro time call isDrop
    have member := System.Execution.ofRun_action_mem isDrop
    simp [timelyNotification, leadAndJoin, publishAndNotify] at member
  · exact System.Execution.ofRun_forall_actions ran RegisteredInTime (by decide)

end Philo.Auth
