import Philo.Provider.Auth.CacheSteps

/-! Who owns the entries of `inflight`. An entry is inserted and removed by one
call; the call is its owner in between. -/

namespace Philo.Auth

open World Function

variable {CallId Key : Type} [DecidableEq CallId] [DecidableEq Key]

def Point.ownsEntry : Point → Bool
  | .fetching | .acquiring (.publish _) | .queued (.publish _) | .locked (.publish _) => true
  | _ => false

section Definitions

omit [DecidableEq CallId] [DecidableEq Key]

def Owns (requests : CallId → RefreshCall Key) (world : World CallId Key) (key : Key)
    (call : CallId) : Prop :=
  (requests call).key = key ∧ (world.point call).ownsEntry = true

def InflightExact (requests : CallId → RefreshCall Key) (world : World CallId Key) : Prop :=
  ∀ key, (world.inflight key).isSome = true ↔ ∃ call, Owns requests world key call

structure EntriesOwned (requests : CallId → RefreshCall Key) (world : World CallId Key) :
    Prop where
  exact : InflightExact requests world
  unique : ∀ key first second, Owns requests world key first →
    Owns requests world key second → first = second

def Abandons (world : World CallId Key) (action : Action CallId) : Prop :=
  ∃ call, action = .drop call ∧ (world.point call).ownsEntry = true

end Definitions

inductive EntryEffect (requests : CallId → RefreshCall Key) (world next : World CallId Key)
    (action : Action CallId) : Prop where
  | unchanged (entries : next.inflight = world.inflight)
      (owners : ∀ other, (next.point other).ownsEntry = (world.point other).ownsEntry)
  | opened (call : CallId) (notify : Nat)
      (absent : world.inflight (requests call).key = none)
      (entries : next.inflight =
        update world.inflight (requests call).key (some notify))
      (owners : ∀ other, (next.point other).ownsEntry =
        if other = call then true else (world.point other).ownsEntry)
  | closed (call : CallId) (owned : (world.point call).ownsEntry = true)
      (entries : next.inflight = update world.inflight (requests call).key none)
      (owners : ∀ other, (next.point other).ownsEntry =
        if other = call then false else (world.point other).ownsEntry)
  | leaked (call : CallId) (dropped : action = .drop call)
      (owned : (world.point call).ownsEntry = true)
      (entries : next.inflight = world.inflight)
      (owners : ∀ other, (next.point other).ownsEntry =
        if other = call then false else (world.point other).ownsEntry)

variable {requests : CallId → RefreshCall Key} {world next : World CallId Key}
  {action : Action CallId} {call : CallId}

section Owners

omit [DecidableEq Key]

theorem owners_setCall (progress : Progress) (other : CallId) :
    ((world.setCall call progress).point other).ownsEntry =
      if other = call then progress.point.ownsEntry else (world.point other).ownsEntry := by
  rw [point_setCall]
  split <;> rfl

theorem owners_kept {progress : Progress}
    (same : progress.point.ownsEntry = (world.point call).ownsEntry) (other : CallId) :
    ((world.setCall call progress).point other).ownsEntry =
      (world.point other).ownsEntry := by
  rw [owners_setCall]
  split
  case isTrue isCall => rw [isCall, same]
  case isFalse => rfl

omit [DecidableEq CallId] in
theorem ownsEntry_wake (notify : Option Nat) (point : Point) :
    (wake notify point).ownsEntry = point.ownsEntry := by
  rcases wake_cases notify point with same | ⟨waitsFor, rfl, woken⟩
  · rw [same]
  · rw [woken]
    rfl

end Owners

theorem Transition.entryEffect (transition : Transition requests world action next) :
    EntryEffect requests world next action := by
  cases transition with
  | tick elapsed => exact .unchanged rfl fun _ => rfl
  | start stands => exact .unchanged rfl (owners_kept (by rw [stands]; rfl))
  | lock stands free => exact .unchanged rfl (owners_kept (by rw [stands]; cases ‹Section› <;> rfl))
  | enqueue stands taken =>
    exact .unchanged rfl (owners_kept (by rw [stands]; cases ‹Section› <;> rfl))
  | granted stands holds =>
    exact .unchanged rfl (owners_kept (by rw [stands]; cases ‹Section› <;> rfl))
  | rewoken stands => exact .unchanged rfl (owners_kept (by rw [stands]; rfl))
  | hit stands cached fresh => exact .unchanged rfl (owners_kept (by rw [stands]; rfl))
  | join stands entry => exact .unchanged rfl (owners_kept (by rw [stands]; rfl))
  | lead stands entry captured => exact .opened _ _ entry rfl (owners_setCall _)
  | createNotified stands => exact .unchanged rfl (owners_kept (by rw [stands]; rfl))
  | @completeFetch call result stands =>
    refine .unchanged ?_ ?_
    · cases result <;> rfl
    · cases result <;> exact owners_kept (by rw [stands]; rfl)
  | @publish call result stands =>
    refine .closed call (by rw [stands]; rfl) ?_ ?_
    · cases result <;> rfl
    · cases result <;> exact owners_setCall _
  | notifyWaiters stands =>
    refine .unchanged rfl fun other => ?_
    rw [moveTo, owners_kept, point_wakeAll, ownsEntry_wake]
    rw [point_wakeAll, ownsEntry_wake, stands]
    rfl
  | @abandon call stands =>
    cases owned : (world.point call).ownsEntry with
    | false => exact .unchanged rfl (owners_kept owned.symm)
    | true => exact .leaked call rfl owned rfl (owners_setCall _)
  | @leave call target stands =>
    cases owned : (world.point call).ownsEntry with
    | false => exact .unchanged rfl (owners_kept owned.symm)
    | true => exact .leaked call rfl owned rfl (owners_setCall _)

omit [DecidableEq Key] [DecidableEq CallId] in
theorem entriesOwned_initial : EntriesOwned requests (initial : World CallId Key) where
  exact key := by simp [initial, Owns, point, Point.ownsEntry]
  unique key first second owns := by simp [initial, Owns, point, Point.ownsEntry] at owns

omit [DecidableEq Key] in
theorem EntriesOwned.none_left (owned : EntriesOwned requests world)
    (owns : (world.point call).ownsEntry = true) (owners : ∀ other, (next.point other).ownsEntry =
      if other = call then false else (world.point other).ownsEntry) (other : CallId) :
    ¬ Owns requests next (requests call).key other := by
  rintro ⟨sameKey, ownsNext⟩
  rw [owners] at ownsNext
  split at ownsNext
  case isTrue => cases ownsNext
  case isFalse different =>
    exact different (owned.unique _ other call ⟨sameKey, ownsNext⟩ ⟨rfl, owns⟩)

theorem EntriesOwned.update {entry : Option Nat} {isOwner : Bool}
    (owned : EntriesOwned requests world)
    (entries : next.inflight = update world.inflight (requests call).key entry)
    (owners : ∀ other, (next.point other).ownsEntry =
      if other = call then isOwner else (world.point other).ownsEntry)
    (exactly : entry.isSome = true ↔ ∃ other, Owns requests next (requests call).key other)
    (unique : ∀ first second, Owns requests next (requests call).key first →
      Owns requests next (requests call).key second → first = second) :
    EntriesOwned requests next := by
  have elsewhere : ∀ {key}, key ≠ (requests call).key → ∀ other,
      (Owns requests next key other ↔ Owns requests world key other) := by
    intro key different other
    rw [Owns, Owns, owners]
    split
    case isTrue isCall => simp [isCall, different.symm]
    case isFalse => rfl
  constructor
  · intro key
    rw [entries]
    by_cases same : key = (requests call).key
    · rw [same, update_self]
      exact exactly
    · simp only [update_of_ne same, elsewhere same, owned.exact key]
  · intro key first second
    by_cases same : key = (requests call).key
    · rw [same]
      exact unique first second
    · rw [elsewhere same, elsewhere same]
      exact owned.unique key first second

theorem EntriesOwned.afterStep (owned : EntriesOwned requests world)
    (kept : ¬ Abandons world action)
    (stepped : step requests world action = some next) : EntriesOwned requests next := by
  cases (transition_of_step stepped).entryEffect with
  | unchanged entries owners =>
    have same : ∀ key call, Owns requests next key call ↔ Owns requests world key call := by
      intro key call
      rw [Owns, Owns, owners]
    constructor
    · intro key
      simp only [entries, same, owned.exact key]
    · simpa only [same] using owned.unique
  | opened call notify absent entries owners =>
    -- The key was free, so the call is its only owner now.
    have sole : ∀ other, Owns requests next (requests call).key other ↔ other = call := by
      intro other
      constructor
      · intro owns
        by_contra different
        rw [Owns, owners, if_neg different] at owns
        have present := (owned.exact _).mpr ⟨other, owns⟩
        simp [absent] at present
      · rintro rfl
        exact ⟨rfl, by simp [owners]⟩
    refine owned.update entries owners (iff_of_true rfl ⟨call, (sole call).mpr rfl⟩) ?_
    intro first second ownsFirst ownsSecond
    exact ((sole first).mp ownsFirst).trans ((sole second).mp ownsSecond).symm
  | closed call owns entries owners =>
    have noneLeft := owned.none_left owns owners
    exact owned.update entries owners (iff_of_false (by simp) fun ⟨other, owns⟩ =>
      noneLeft other owns) fun first _ ownsFirst => absurd ownsFirst (noneLeft first)
  | leaked call dropped owns entries owners => exact absurd ⟨call, dropped, owns⟩ kept

/-- A dropped owner leaves its entry behind, and no other call owns it. -/
theorem EntriesOwned.not_exact_of_abandons (owned : EntriesOwned requests world)
    (abandons : Abandons world action) (stepped : step requests world action = some next) :
    ¬ InflightExact requests next := by
  rcases abandons with ⟨call, rfl, owns⟩
  have entryStays : next.inflight = world.inflight := by cases transition_of_step stepped <;> rfl
  have noneLeft : ∀ other, ¬ Owns requests next (requests call).key other := by
    cases transition_of_step stepped <;> exact owned.none_left owns (owners_setCall _)
  intro exact
  have present := (owned.exact (requests call).key).mpr ⟨call, rfl, owns⟩
  rw [← entryStays] at present
  rcases (exact _).mp present with ⟨other, ownsNext⟩
  exact noneLeft other ownsNext

/-- The entries of `inflight` are exact in every state of a run if and only if the
run drops no future that owns one. -/
theorem inflightExact_iff_noOwnerDropped (requests : CallId → RefreshCall Key)
    (actions : List (Action CallId)) (final : World CallId Key)
    (ran : (cacheSystem requests).run .initial actions = some final) :
    (∀ world, (cacheSystem requests).Visits .initial actions world →
        InflightExact requests world) ↔
      ∀ world action, (cacheSystem requests).Takes .initial actions world action →
        ¬ Abandons world action :=
  System.visits_iff_takes (fun world action => ¬ Abandons world action)
    (EntriesOwned requests) (fun _ _ _ owned kept => owned.afterStep kept)
    (fun _ => EntriesOwned.exact)
    (fun _ _ _ owned abandons => owned.not_exact_of_abandons (not_not.mp abandons))
    entriesOwned_initial ran

def singleRequest (_ : Unit) : RefreshCall Unit := ⟨(), 0, false⟩

def cancelledFetch : List (Action Unit) := [.start (), .acquire (), .examine (), .drop ()]

/-- Its entry stays in flight, and no call is left to remove it. -/
theorem cancelledFetch_leaks :
    ∃ world, (cacheSystem singleRequest).run .initial cancelledFetch = some world ∧
      ¬ InflightExact singleRequest world := by
  refine ⟨_, rfl, ?_⟩
  intro exact
  rcases (exact ()).mp rfl with ⟨⟨⟩, _, owns⟩
  exact absurd owns (by decide)

def completedFetch : List (Action Unit) :=
  [.start (), .acquire (), .examine (), .completeFetch () (.error (.credential .refreshFailed)),
    .acquire (), .publish (), .notifyWaiters ()]

theorem completedFetch_exact :
    ((cacheSystem singleRequest).run .initial completedFetch).isSome = true ∧
      ∀ world, (cacheSystem singleRequest).Visits .initial completedFetch world →
        InflightExact singleRequest world := by
  refine ⟨rfl, (inflightExact_iff_noOwnerDropped singleRequest completedFetch _ rfl).mpr ?_⟩
  rintro world action ⟨first, later, split, _⟩ ⟨call, rfl, _⟩
  have member : Action.drop call ∈ completedFetch := by simp [split]
  simp [completedFetch] at member

end Philo.Auth
