import Mathlib.Algebra.Order.Ring.Int
import Mathlib.Data.List.Induction

/-! Text that arrives in pieces, each piece under a key. Read in arrival order it is one
string, and read key by key another; they are the same when no piece goes back to an
earlier key. -/

namespace Philo.KeyedText

variable {κ : Type _}

def joined (pieces : List (κ × String)) : String := String.join (pieces.map Prod.snd)

@[simp] theorem joined_nil : joined ([] : List (κ × String)) = "" := rfl

theorem joined_append (first second : List (κ × String)) :
    joined (first ++ second) = joined first ++ joined second := by
  simp [joined, String.join_append]

@[simp] theorem joined_singleton (piece : κ × String) : joined [piece] = piece.2 := by
  simp [joined, String.join_cons]

variable [DecidableEq κ]

def joinedAt (key : κ) (pieces : List (κ × String)) : String :=
  joined (pieces.filter fun piece => piece.1 = key)

@[simp] theorem joinedAt_nil (key : κ) : joinedAt key ([] : List (κ × String)) = "" := rfl

theorem joinedAt_append (key : κ) (first second : List (κ × String)) :
    joinedAt key (first ++ second) = joinedAt key first ++ joinedAt key second := by
  rw [joinedAt, List.filter_append, joined_append]
  rfl

theorem joinedAt_same (key : κ) (text : String) : joinedAt key [(key, text)] = text := by
  simp [joinedAt]

theorem joinedAt_other {key other : κ} (different : other ≠ key) (text : String) :
    joinedAt key [(other, text)] = "" := by
  simp [joinedAt, different]

theorem joinedAt_eq_empty {key : κ} {pieces : List (κ × String)}
    (absent : ∀ piece ∈ pieces, piece.1 ≠ key) : joinedAt key pieces = "" := by
  have none_left : pieces.filter (fun piece => piece.1 = key) = [] :=
    List.filter_eq_nil_iff.mpr fun piece member => by simpa using absent piece member
  rw [joinedAt, none_left, joined_nil]

theorem joinedAt_map {ι : Type _} [DecidableEq ι] {rename : κ → ι}
    (injective : Function.Injective rename) (key : κ) (pieces : List (κ × String)) :
    joinedAt (rename key) (pieces.map (Prod.map rename id)) = joinedAt key pieces := by
  simp [joinedAt, joined, List.filter_map, Function.comp_def, injective.eq_iff]

section Order

variable {κ : Type _} [LinearOrder κ]

/-- No piece goes back to an earlier key. -/
def InOrder (pieces : List (κ × String)) : Prop :=
  pieces.Pairwise fun earlier later => earlier.1 ≤ later.1

theorem InOrder.append_at {pieces more : List (κ × String)} {key : κ}
    (inOrder : InOrder pieces) (below : ∀ piece ∈ pieces, piece.1 ≤ key)
    (within : ∀ piece ∈ more, piece.1 = key) : InOrder (pieces ++ more) := by
  refine List.pairwise_append.mpr ⟨inOrder, ?_, ?_⟩
  · refine List.pairwise_iff_forall_sublist.mpr fun sublist => ?_
    have both := sublist.subset
    rw [within _ (both (by simp)), within _ (both (by simp))]
  · intro earlier isEarlier later isLater
    rw [within later isLater]
    exact below earlier isEarlier

theorem map_joinedAt_snoc {keys : List κ} {key : κ} (text : String)
    (pieces : List (κ × String)) (absent : key ∉ keys) :
    keys.map (joinedAt · (pieces ++ [(key, text)])) = keys.map (joinedAt · pieces) := by
  refine List.map_congr_left fun other member => ?_
  have different : key ≠ other := fun same => absent (same ▸ member)
  rw [joinedAt_append, joinedAt_other different, String.append_empty]

/-- Nothing has arrived yet for the keys above all others. -/
theorem join_map_joinedAt_eq_empty {keys : List κ} {pieces : List (κ × String)}
    (above : ∀ key ∈ keys, ∀ piece ∈ pieces, piece.1 < key) :
    String.join (keys.map (joinedAt · pieces)) = "" := by
  induction keys with
  | nil => rfl
  | cons key rest induction =>
    have first : joinedAt key pieces = "" := joinedAt_eq_empty fun piece member =>
      ne_of_lt (above key (List.mem_cons_self ..) piece member)
    rw [List.map_cons, String.join_cons, first, String.empty_append]
    exact induction fun other member => above other (List.mem_cons_of_mem _ member)

/-- Reading key by key gives the text in arrival order. -/
theorem join_joinedAt {keys : List κ} {pieces : List (κ × String)}
    (sorted : keys.Pairwise (· < ·)) (inOrder : InOrder pieces)
    (covers : ∀ key, joinedAt key pieces ≠ "" → key ∈ keys) :
    String.join (keys.map (joinedAt · pieces)) = joined pieces := by
  induction pieces using List.reverseRecOn with
  | nil => exact join_map_joinedAt_eq_empty (by simp)
  | append_singleton pieces piece induction =>
    rcases piece with ⟨key, text⟩
    have split := List.pairwise_append.mp inOrder
    have earlier := induction split.1 fun other filled => covers other fun emptied => by
      rw [joinedAt_append, String.append_eq_empty_iff] at emptied
      exact filled emptied.1
    rw [joined_append, joined_singleton, ← earlier]
    by_cases member : key ∈ keys
    · rcases List.append_of_mem member with ⟨before, after, rfl⟩
      rcases List.pairwise_append.mp sorted with ⟨_, sortedAfter, below⟩
      have above := (List.pairwise_cons.mp sortedAfter).1
      have notBefore : key ∉ before := fun isBefore =>
        lt_irrefl key (below key isBefore key (List.mem_cons_self ..))
      have notAfter : key ∉ after := fun isAfter => lt_irrefl key (above key isAfter)
      have silent : String.join (after.map (joinedAt · pieces)) = "" := by
        refine join_map_joinedAt_eq_empty fun other isAfter piece isPiece => ?_
        exact lt_of_le_of_lt (split.2.2 piece isPiece _ (List.mem_singleton_self _))
          (above other isAfter)
      rw [List.map_append, List.map_cons, map_joinedAt_snoc text pieces notBefore,
        map_joinedAt_snoc text pieces notAfter, joinedAt_append, joinedAt_same]
      simp only [List.map_append, List.map_cons, String.join_append, String.join_cons,
        silent, String.append_empty, String.append_assoc]
    · have quiet : joinedAt key (pieces ++ [(key, text)]) = "" := by
        by_contra filled
        exact member (covers key filled)
      rw [joinedAt_append, joinedAt_same, String.append_eq_empty_iff] at quiet
      rw [map_joinedAt_snoc text pieces member, quiet.2, String.append_empty]

end Order

end Philo.KeyedText
