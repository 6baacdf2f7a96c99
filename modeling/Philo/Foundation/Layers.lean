import Mathlib.Data.List.Induction
import Mathlib.Data.List.Sort

/-! Writes to a table, made in the order of a priority. -/

namespace Philo.Layers

/-! ## Stable sorting by a rank -/

section Rank

variable {α : Type _} (rank : α → Nat)

def leRank (first second : α) : Bool := rank first ≤ rank second

/-- `sort_by_key`: ascending, and stable. -/
def sortByRank (items : List α) : List α := items.mergeSort (leRank rank)

theorem leRank_trans (first second third : α) (below : leRank rank first second = true)
    (above : leRank rank second third = true) : leRank rank first third = true := by
  simp only [leRank, decide_eq_true_eq] at *
  omega

theorem leRank_total (first second : α) :
    (leRank rank first second || leRank rank second first) = true := by
  simp only [leRank, Bool.or_eq_true, decide_eq_true_eq]
  omega

theorem sortByRank_perm (items : List α) : (sortByRank rank items).Perm items :=
  List.mergeSort_perm ..

theorem pairwise_sortByRank (items : List α) :
    (sortByRank rank items).Pairwise fun first second => leRank rank first second = true :=
  List.pairwise_mergeSort (leRank_trans rank) (leRank_total rank) items

theorem sortByRank_of_pairwise {items : List α}
    (sorted : items.Pairwise fun first second => leRank rank first second = true) :
    sortByRank rank items = items :=
  List.mergeSort_of_pairwise sorted

theorem filter_sortByRank (items : List α) (selected : α → Bool)
    (oneRank : ∀ first second, selected first = true → selected second = true →
      rank first = rank second) :
    (sortByRank rank items).filter selected = items.filter selected := by
  have sorted : (items.filter selected).Pairwise
      fun first second => leRank rank first second = true := by
    rw [List.pairwise_iff_forall_sublist]
    intro first second pair
    have firstMember := List.mem_filter.mp (pair.subset List.mem_cons_self)
    have secondMember := List.mem_filter.mp
      (pair.subset (List.mem_cons_of_mem _ List.mem_cons_self))
    have same := oneRank first second firstMember.2 secondMember.2
    simp only [leRank, decide_eq_true_eq]
    omega
  have kept : (items.filter selected).Sublist (sortByRank rank items) :=
    List.sublist_mergeSort (leRank_trans rank) (leRank_total rank) sorted List.filter_sublist
  have within : (items.filter selected).Sublist ((sortByRank rank items).filter selected) := by
    simpa using kept.filter selected
  exact (within.eq_of_length ((sortByRank_perm rank items).filter selected).length_eq.symm).symm

/-- Where no two items share a rank, the order of the input does not matter. -/
theorem sortByRank_eq_of_perm {items others : List α} (perm : items.Perm others)
    (distinct : (items.map rank).Nodup) : sortByRank rank items = sortByRank rank others := by
  have itemsPerm := sortByRank_perm rank items
  have othersPerm := sortByRank_perm rank others
  refine List.Perm.eq_of_pairwise ?_ (pairwise_sortByRank rank items)
    (pairwise_sortByRank rank others) (itemsPerm.trans (perm.trans othersPerm.symm))
  intro first second firstMember secondMember below above
  have sameRank : rank first = rank second := by
    simp only [leRank, decide_eq_true_eq] at below above
    omega
  exact List.inj_on_of_nodup_map distinct (itemsPerm.mem_iff.mp firstMember)
    (perm.mem_iff.mpr (othersPerm.mem_iff.mp secondMember)) sameRank

end Rank

/-! ## The last write -/

section Writes

variable {Key Value : Type _} [DecidableEq Key]

def write (table : Key → Option Value) (entry : Key × Option Value) : Key → Option Value :=
  Function.update table entry.1 entry.2

def written (table : Key → Option Value) (writes : List (Key × Option Value)) :
    Key → Option Value :=
  writes.foldl write table

theorem written_append (table : Key → Option Value) (first later : List (Key × Option Value)) :
    written table (first ++ later) = written (written table first) later :=
  List.foldl_append

theorem written_snoc_self (table : Key → Option Value) (writes : List (Key × Option Value))
    (key : Key) (value : Option Value) : written table (writes ++ [(key, value)]) key = value := by
  rw [written_append]
  exact Function.update_self ..

theorem written_snoc_of_ne (table : Key → Option Value) (writes : List (Key × Option Value))
    {entry : Key × Option Value} {key : Key} (different : entry.1 ≠ key) :
    written table (writes ++ [entry]) key = written table writes key := by
  rw [written_append]
  exact Function.update_of_ne (Ne.symm different) ..

/-- A key has the value of the last write to it. -/
theorem written_eq_getLast (table : Key → Option Value) (writes : List (Key × Option Value))
    (key : Key) : written table writes key =
      ((writes.filter fun entry => entry.1 = key).getLast?.map Prod.snd).getD (table key) := by
  induction writes using List.reverseRecOn with
  | nil => rfl
  | append_singleton rest entry induction =>
    rcases entry with ⟨other, value⟩
    by_cases same : other = key
    · subst same
      rw [written_snoc_self]
      simp
    · rw [written_snoc_of_ne table rest same, induction]
      simp [List.filter_append, same]

theorem written_congr (table : Key → Option Value) {writes others : List (Key × Option Value)}
    {key : Key} (same : writes.filter (fun entry => entry.1 = key) =
      others.filter fun entry => entry.1 = key) :
    written table writes key = written table others key := by
  rw [written_eq_getLast, written_eq_getLast, same]

end Writes

end Philo.Layers
