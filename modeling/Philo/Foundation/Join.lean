import Mathlib.Order.Bounds.Basic

/-! Joins in an order where not all of them exist, one element after another. -/

namespace Philo

section Join

variable {α : Type _} [PartialOrder α] {first second joined whole : α} {rest : List α}

theorem isLUB_cons_cons (isJoined : IsLUB {first, second} joined) :
    IsLUB {value | value ∈ first :: second :: rest} whole ↔
      IsLUB {value | value ∈ joined :: rest} whole := by
  have sameBounds : upperBounds {value | value ∈ first :: second :: rest} =
      upperBounds {value | value ∈ joined :: rest} := by
    ext bound
    have pair : joined ≤ bound ↔ first ≤ bound ∧ second ≤ bound := by
      rw [isLUB_le_iff isJoined]
      simp [upperBounds]
    simp [upperBounds, pair, and_assoc]
  rw [IsLUB, IsLUB, sameBounds]

theorem isLUB_singleton_list : IsLUB {value | value ∈ [first]} whole ↔ whole = first := by
  have single : {value | value ∈ [first]} = {first} := by
    ext value
    simp
  rw [single]
  exact ⟨fun isWhole => isWhole.unique isLUB_singleton, fun same => same ▸ isLUB_singleton⟩

theorem bddAbove_pair (isWhole : IsLUB {value | value ∈ first :: second :: rest} whole) :
    BddAbove {first, second} := by
  refine ⟨whole, fun value member => isWhole.1 ?_⟩
  rcases member with rfl | rfl
  · exact List.mem_cons_self
  · exact List.mem_cons_of_mem _ List.mem_cons_self

theorem join_le_whole (isJoined : IsLUB {first, second} joined)
    (isWhole : IsLUB {value | value ∈ first :: second :: rest} whole) : joined ≤ whole :=
  ((isLUB_cons_cons isJoined).mp isWhole).1 List.mem_cons_self

end Join

end Philo
