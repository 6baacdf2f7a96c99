import Philo.Foundation.Result

/-! Computations that take time. A future is what it does when it is awaited from some
point of the clock on: how long it takes and how it ends, or that it never ends. Steps
between two awaits take no time. -/

namespace Philo

def Async (ε α : Type) : Type := Nat → Option (Nat × Except ε α)

namespace Async

variable {ε α β : Type}

def ofResult (result : Except ε α) : Async ε α := fun _ => some (0, result)

def never : Async ε α := fun _ => none

def after (elapsed : Nat) (next : Option (Nat × Except ε β)) : Option (Nat × Except ε β) :=
  next.map fun (later, result) => (elapsed + later, result)

protected def bind (future : Async ε α) (next : α → Async ε β) : Async ε β := fun now =>
  match future now with
  | none => none
  | some (elapsed, .error error) => some (elapsed, .error error)
  | some (elapsed, .ok value) => after elapsed (next value (now + elapsed))

instance : Monad (Async ε) where
  pure value := ofResult (.ok value)
  bind := Async.bind

/-- `future`, unless the clock reaches `limit` before it ends. The timer is looked at
first, so that it wins when both are due. -/
def unlessAt (limit : Option Nat) (interrupted : Nat → ε) (future : Async ε α) : Async ε α :=
  fun now =>
    match limit with
    | none => future now
    | some limit =>
      let cut := some (limit - now, .error (interrupted (max now limit)))
      match future now with
      | none => cut
      | some (elapsed, result) => if now + elapsed < limit then some (elapsed, result) else cut

/-- `tokio::time::timeout`: here the future is looked at first. -/
def timeout (limit : Nat) (expired : ε) (future : Async ε α) : Async ε α := fun now =>
  match future now with
  | none => some (limit, .error expired)
  | some (elapsed, result) =>
    if elapsed ≤ limit then some (elapsed, result) else some (limit, .error expired)

def mapError {ε' : Type} (convert : ε → ε') (future : Async ε α) : Async ε' α := fun now =>
  (future now).map fun (elapsed, result) => (elapsed, Result.mapError convert result)

/-! ## Taking runs apart -/

@[simp] theorem ofResult_apply (result : Except ε α) (now : Nat) :
    ofResult result now = some (0, result) := rfl

@[simp] theorem pure_apply (value : α) (now : Nat) :
    (pure value : Async ε α) now = some (0, .ok value) := rfl

@[simp] theorem never_apply (now : Nat) : (never : Async ε α) now = none := rfl

variable {elapsed total now bound : Nat} {future : Async ε α} {next : α → Async ε β}

theorem after_eq_some {next : Option (Nat × Except ε β)} {result : Except ε β}
    : after elapsed next = some (total, result) ↔
      ∃ later, next = some (later, result) ∧ total = elapsed + later := by
  simp only [after, Option.map_eq_some_iff, Prod.mk.injEq, Prod.exists]
  constructor
  · rintro ⟨later, other, ends, rfl, rfl⟩
    exact ⟨later, ends, rfl⟩
  · rintro ⟨later, ends, rfl⟩
    exact ⟨later, result, ends, rfl, rfl⟩

@[simp] theorem after_zero (next : Option (Nat × Except ε β)) : after 0 next = next := by
  cases next <;> simp [after]

theorem bind_apply (future : Async ε α) (next : α → Async ε β) (now : Nat) :
    (future >>= next) now =
      match future now with
      | none => none
      | some (elapsed, .error error) => some (elapsed, .error error)
      | some (elapsed, .ok value) => after elapsed (next value (now + elapsed)) := rfl

@[simp] theorem ofResult_ok_bind (value : α) (next : α → Async ε β) :
    (ofResult (.ok value) >>= next) = next value := by
  funext now
  simp [bind_apply]

theorem bind_assoc {γ : Type} (last : β → Async ε γ) :
    (future >>= next) >>= last = future >>= fun value => next value >>= last := by
  funext now
  simp only [bind_apply]
  rcases future now with _ | ⟨elapsed, error | value⟩
  · rfl
  · rfl
  · rcases ending : next value (now + elapsed) with _ | ⟨later, error | second⟩ <;>
      simp [ending, after, Function.comp_def, Nat.add_assoc]

theorem bind_eq_some {result : Except ε β} : (future >>= next) now = some (total, result) ↔
      (∃ error, future now = some (total, .error error) ∧ result = .error error) ∨
      ∃ elapsed value later, future now = some (elapsed, .ok value) ∧
        next value (now + elapsed) = some (later, result) ∧ total = elapsed + later := by
  rw [bind_apply]
  cases first : future now with
  | none => simp
  | some ending =>
    rcases ending with ⟨elapsed, error | value⟩
    · constructor
      · rintro equal
        cases equal
        exact .inl ⟨error, rfl, rfl⟩
      · rintro (⟨other, equal, rfl⟩ | ⟨_, _, _, equal, _⟩)
        · cases equal
          rfl
        · cases equal
    · simp only [after_eq_some]
      constructor
      · rintro ⟨later, ends, rfl⟩
        exact .inr ⟨elapsed, value, later, rfl, ends, rfl⟩
      · rintro (⟨_, equal, _⟩ | ⟨_, _, later, equal, ends, rfl⟩)
        · cases equal
        · cases equal
          exact ⟨later, ends, rfl⟩

theorem bind_eq_ok {value : β} : (future >>= next) now = some (total, .ok value) ↔
      ∃ elapsed first later, future now = some (elapsed, .ok first) ∧
        next first (now + elapsed) = some (later, .ok value) ∧ total = elapsed + later := by
  rw [bind_eq_some]
  constructor
  · rintro (⟨error, _, impossible⟩ | run)
    · cases impossible
    · exact run
  · exact .inr

@[simp] theorem unlessAt_none (interrupted : Nat → ε) (future : Async ε α) :
    unlessAt none interrupted future = future := rfl

theorem unlessAt_eq_ok {limit : Option Nat} {interrupted : Nat → ε} {value : α} :
    unlessAt limit interrupted future now = some (elapsed, .ok value) ↔
      future now = some (elapsed, .ok value) ∧ ∀ at' ∈ limit, now + elapsed < at' := by
  cases limit with
  | none => simp
  | some limit =>
    unfold unlessAt
    cases ends : future now with
    | none => simp
    | some ending =>
      rcases ending with ⟨taken, result⟩
      by_cases inTime : now + taken < limit
      · simp only [inTime, if_true, Option.mem_def, Option.some.injEq, forall_eq',
          Prod.mk.injEq]
        constructor
        · rintro ⟨rfl, rfl⟩
          exact ⟨⟨rfl, rfl⟩, inTime⟩
        · exact And.left
      · simp only [inTime, if_false, Option.mem_def, Option.some.injEq, forall_eq',
          Prod.mk.injEq, reduceCtorEq, and_false, false_iff, not_and]
        rintro ⟨rfl, _⟩
        exact inTime

/-! ## Bounds -/

def ResolvesWithin (future : Async ε α) (now bound : Nat) : Prop :=
  ∃ elapsed result, future now = some (elapsed, result) ∧ elapsed ≤ bound

theorem resolvesWithin_ofResult (result : Except ε α) (now bound : Nat) :
    (ofResult result).ResolvesWithin now bound :=
  ⟨0, result, rfl, Nat.zero_le _⟩

theorem ResolvesWithin.bind {first later : Nat} (resolves : future.ResolvesWithin now first)
    (continues : ∀ elapsed value, future now = some (elapsed, .ok value) →
      (next value).ResolvesWithin (now + elapsed) later) :
    (future >>= next).ResolvesWithin now (first + later) := by
  rcases resolves with ⟨elapsed, error | value, ends, within⟩
  · exact ⟨elapsed, .error error, by simp [bind_apply, ends], by omega⟩
  · rcases continues elapsed value ends with ⟨rest, result, restEnds, restWithin⟩
    refine ⟨elapsed + rest, result, ?_, by omega⟩
    simp [bind_apply, ends, restEnds, after]

theorem resolvesWithin_ofResult_bind {result : Except ε α}
    (continues : ∀ value, result = .ok value → (next value).ResolvesWithin now bound) :
    (ofResult result >>= next).ResolvesWithin now bound := by
  cases result with
  | error error => exact resolvesWithin_ofResult _ now bound
  | ok value =>
    rw [ofResult_ok_bind]
    exact continues value rfl

theorem resolvesWithin_of_ok {value : α}
    (succeeded : future now = some (elapsed, .ok value)) (fits : elapsed ≤ bound) :
    (future >>= next).ResolvesWithin now bound ↔
      (next value).ResolvesWithin (now + elapsed) (bound - elapsed) := by
  simp only [ResolvesWithin, bind_apply, succeeded, after_eq_some]
  constructor
  · rintro ⟨_, result, ⟨later, ends, rfl⟩, within⟩
    exact ⟨later, result, ends, by omega⟩
  · rintro ⟨later, result, ends, within⟩
    exact ⟨elapsed + later, result, ⟨later, ends, rfl⟩, by omega⟩

theorem resolvesWithin_bind_pure {finish : α → β} :
    (future >>= fun value => pure (finish value)).ResolvesWithin now bound ↔
      future.ResolvesWithin now bound := by
  simp only [ResolvesWithin, bind_apply, pure_apply]
  cases future now with
  | none => simp
  | some ending => rcases ending with ⟨elapsed, error | value⟩ <;> simp [after]

theorem resolvesWithin_unlessAt (limit : Nat) (interrupted : Nat → ε) (future : Async ε α)
    (now : Nat) : (unlessAt (some limit) interrupted future).ResolvesWithin now (limit - now) := by
  unfold ResolvesWithin unlessAt
  cases ends : future now with
  | none => exact ⟨_, _, rfl, Nat.le_refl _⟩
  | some ending =>
    rcases ending with ⟨elapsed, result⟩
    by_cases inTime : now + elapsed < limit
    · refine ⟨elapsed, result, by simp [inTime], by omega⟩
    · refine ⟨limit - now, .error (interrupted (max now limit)), by simp [inTime], Nat.le_refl _⟩

end Async

end Philo
