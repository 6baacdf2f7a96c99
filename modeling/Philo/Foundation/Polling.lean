import Mathlib.Data.List.Basic

/-! Streams that are polled. One call yields an item, says that there are no more, or is
not ready yet; what a stream yields is what its calls yield until the first one that
says there are no more. -/

namespace Philo

inductive Poll (α : Type _) where
  | ready (value : α)
  | pending
  deriving DecidableEq

abbrev PollNext (σ α : Type _) := σ → Poll (Option α) × σ

namespace PollNext

variable {σ α : Type _}

inductive Yields (pollNext : PollNext σ α) : σ → List α → Prop
  | ended {state next : σ} (polled : pollNext state = (.ready none, next)) :
      Yields pollNext state []
  | ready {state next : σ} {item : α} {items : List α}
      (polled : pollNext state = (.ready (some item), next))
      (later : Yields pollNext next items) : Yields pollNext state (item :: items)
  | pending {state next : σ} {items : List α} (polled : pollNext state = (.pending, next))
      (later : Yields pollNext next items) : Yields pollNext state items

/-- The call that has just ended like this leaves `items` to be yielded, its own one
included. -/
inductive Leaves (pollNext : PollNext σ α) : Poll (Option α) × σ → List α → Prop
  | ended {next : σ} : Leaves pollNext (.ready none, next) []
  | ready {next : σ} {item : α} {items : List α} (later : Yields pollNext next items) :
      Leaves pollNext (.ready (some item), next) (item :: items)
  | pending {next : σ} {items : List α} (later : Yields pollNext next items) :
      Leaves pollNext (.pending, next) items

variable {pollNext : PollNext σ α} {state : σ} {items others : List α}

theorem Leaves.yields (leaves : Leaves pollNext (pollNext state) items) :
    Yields pollNext state items := by
  generalize polled : pollNext state = call at leaves
  cases leaves with
  | ended => exact .ended polled
  | ready later => exact .ready polled later
  | pending later => exact .pending polled later

theorem Yields.leaves (yields : Yields pollNext state items) :
    Leaves pollNext (pollNext state) items := by
  cases yields with
  | ended polled => exact polled ▸ .ended
  | ready polled later => exact polled ▸ .ready later
  | pending polled later => exact polled ▸ .pending later

theorem Yields.unique (yields : Yields pollNext state items)
    (yieldsOthers : Yields pollNext state others) : others = items := by
  induction yields generalizing others with
  | ended polled =>
    cases polled ▸ yieldsOthers.leaves
    rfl
  | ready polled _ induction =>
    cases polled ▸ yieldsOthers.leaves with
    | ready later => rw [induction later]
  | pending polled _ induction =>
    cases polled ▸ yieldsOthers.leaves with
    | pending later => exact induction later

theorem Yields.iff_eq (yields : Yields pollNext state items) :
    Yields pollNext state others ↔ others = items :=
  ⟨yields.unique, fun equal => equal ▸ yields⟩

end PollNext

end Philo
