import Mathlib.Algebra.Order.Ring.Int
import Mathlib.Data.List.Nodup
import Mathlib.Data.List.Perm.Subperm

/-! Finite tables seen as partial functions, and two tables that describe the
same open items under different keys. -/

namespace Philo

open Std Function

section Update

variable {κ β : Type _} [DecidableEq κ] {table : κ → Option β} {key other : κ} {value found : β}

theorem update_some_eq_some : update table key (some value) other = some found ↔
      other = key ∧ value = found ∨ other ≠ key ∧ table other = some found := by
  by_cases same : other = key
  · subst same
    simp
  · simp [same]

theorem update_none_eq_some : update table key none other = some found ↔
      other ≠ key ∧ table other = some found := by
  by_cases same : other = key
  · subst same
    simp
  · simp [same]

def Holds (has : β → Prop) (table : κ → Option β) : Prop :=
  ∃ key value, table key = some value ∧ has value

theorem holds_iff (has : β → Prop) (table : κ → Option β) (key : κ) : Holds has table ↔
      Holds has (update table key none) ∨ ∃ value, table key = some value ∧ has value := by
  constructor
  · rintro ⟨other, value, found, isSo⟩
    by_cases same : other = key
    · exact .inr ⟨value, same ▸ found, isSo⟩
    · exact .inl ⟨other, value, update_none_eq_some.mpr ⟨same, found⟩, isSo⟩
  · rintro (⟨other, value, found, isSo⟩ | ⟨value, found, isSo⟩)
    · exact ⟨other, value, (update_none_eq_some.mp found).2, isSo⟩
    · exact ⟨key, value, found, isSo⟩

theorem holds_update (has : β → Prop) (table : κ → Option β) (key : κ) (value : β) :
    Holds has (update table key (some value)) ↔
      Holds has (update table key none) ∨ has value := by
  rw [holds_iff has _ key, update_idem, update_self]
  simp

theorem update_none_of_vacant (vacant : table key = none) : update table key none = table :=
  update_eq_self_iff.mpr vacant.symm

end Update

section Lookup

variable {κ β : Type _} [Ord κ]

def lookup (table : TreeMap κ β) (key : κ) : Option β := table[key]?

variable [TransOrd κ]

variable {table : TreeMap κ β} {key other : κ} {value : β}

theorem lookup_empty : lookup (∅ : TreeMap κ β) = fun _ => none := by
  funext key
  simp [lookup]

theorem mem_iff_lookup : key ∈ table ↔ ∃ value, lookup table key = some value := by
  rw [TreeMap.mem_iff_isSome_getElem?, Option.isSome_iff_exists]
  rfl

theorem not_mem_iff_lookup : key ∉ table ↔ lookup table key = none := by
  rw [mem_iff_lookup, Option.eq_none_iff_forall_ne_some, not_exists]

theorem isEmpty_iff_lookup : table.isEmpty = true ↔ ∀ key, lookup table key = none := by
  simp only [TreeMap.isEmpty_iff_forall_not_mem, not_mem_iff_lookup]

theorem size_insert_new {values : TreeSet κ} {value : κ} (isNew : value ∉ values) :
    (values.insert value).size = values.size + 1 := by
  rw [TreeSet.size_insert, if_neg]
  exact isNew

variable [LawfulEqOrd κ]

theorem mem_values_iff :
    value ∈ table.toList.map Prod.snd ↔ ∃ key, lookup table key = some value := by
  simp only [List.mem_map, Prod.exists, TreeMap.mem_toList_iff_getElem?_eq_some, exists_eq_right]
  rfl

theorem mem_insert_iff : other ∈ table.insert key value ↔ other = key ∨ other ∈ table := by
  rw [TreeMap.mem_insert, Std.compare_eq_iff_eq, eq_comm]

theorem mem_insert_found {old : β}
    (found : lookup table key = some old) : other ∈ table.insert key value ↔ other ∈ table := by
  rw [mem_insert_iff]
  exact or_iff_right_of_imp fun same => same ▸ mem_iff_lookup.mpr ⟨old, found⟩

theorem mem_set_insert_iff {values : TreeSet κ} {value : κ} :
    other ∈ values.insert value ↔ other ∈ values ∨ other = value := by
  rw [TreeSet.mem_insert, Std.compare_eq_iff_eq, eq_comm, or_comm]

theorem mem_erase_iff : other ∈ table.erase key ↔ other ≠ key ∧ other ∈ table := by
  rw [TreeMap.mem_erase, ne_eq, Std.compare_eq_iff_eq, eq_comm]

theorem nodup_toList (table : TreeMap κ β) : table.toList.Nodup := by
  refine TreeMap.distinct_keys_toList.imp ?_
  rintro first second apart rfl
  exact apart (Std.compare_eq_iff_eq.mpr rfl)

theorem size_add_le {first second all : TreeSet κ} (apart : ∀ value ∈ second, value ∉ first)
    (inside : ∀ value, value ∈ first ∨ value ∈ second → value ∈ all) :
    first.size + second.size ≤ all.size := by
  have nodup : ∀ values : TreeSet κ, values.toList.Nodup := fun values =>
    values.distinct_toList.imp fun different same => different (Std.compare_eq_iff_eq.mpr same)
  have together : (first.toList ++ second.toList).Nodup :=
    List.nodup_append.mpr ⟨nodup first, nodup second, fun value inFirst other inSecond same =>
      apart other (TreeSet.mem_toList.mp inSecond) (same ▸ TreeSet.mem_toList.mp inFirst)⟩
  have subset : first.toList ++ second.toList ⊆ all.toList := by
    intro value member
    rw [List.mem_append, TreeSet.mem_toList, TreeSet.mem_toList] at member
    exact TreeSet.mem_toList.mpr (inside value member)
  have fits := (List.subperm_of_subset together subset).length_le
  rwa [List.length_append, TreeSet.length_toList, TreeSet.length_toList,
    TreeSet.length_toList] at fits

variable [DecidableEq κ]

theorem lookup_insert (table : TreeMap κ β) (key : κ) (value : β) :
    lookup (table.insert key value) = update (lookup table) key (some value) := by
  funext other
  by_cases same : other = key
  · simp [lookup, same]
  · rw [update_of_ne same]
    simp [lookup, TreeMap.getElem?_insert, Ne.symm same]

theorem lookup_erase (table : TreeMap κ β) (key : κ) :
    lookup (table.erase key) = update (lookup table) key none := by
  funext other
  by_cases same : other = key
  · simp [lookup, same]
  · rw [update_of_ne same]
    simp [lookup, TreeMap.getElem?_erase, Ne.symm same]

theorem lookup_insert_eq_some {found : β} : lookup (table.insert key value) other = some found ↔
      other = key ∧ value = found ∨ other ≠ key ∧ lookup table other = some found := by
  rw [lookup_insert, update_some_eq_some]

theorem forall_lookup_insert {holds : β → Prop} (new : holds value)
    (old : ∀ other found, lookup table other = some found → holds found) :
    ∀ other found, lookup (table.insert key value) other = some found → holds found := by
  intro other found atOther
  rcases lookup_insert_eq_some.mp atOther with ⟨_, rfl⟩ | ⟨_, before⟩
  · exact new
  · exact old other found before

/-- A table lists one of its entries and those of the table without it. -/
theorem toList_perm_cons {rest : TreeMap κ β} (found : lookup table key = some value)
    (others : lookup rest = update (lookup table) key none) :
    table.toList.Perm ((key, value) :: rest.toList) := by
  have vacant : ∀ value', (key, value') ∉ rest.toList := by
    intro value' member
    have here : lookup rest key = some value' := TreeMap.mem_toList_iff_getElem?_eq_some.mp member
    rw [others, update_self] at here
    cases here
  refine (List.perm_ext_iff_of_nodup (nodup_toList table)
    (List.nodup_cons.mpr ⟨vacant value, nodup_toList rest⟩)).mpr fun entry => ?_
  rcases entry with ⟨other, value'⟩
  rw [List.mem_cons, TreeMap.mem_toList_iff_getElem?_eq_some,
    TreeMap.mem_toList_iff_getElem?_eq_some]
  change lookup table other = _ ↔ _ ∨ lookup rest other = _
  by_cases same : other = key
  · subst other
    rw [found, others, update_self]
    simp [eq_comm]
  · rw [others, update_of_ne same]
    simp [same]

def tableSum (size : β → Nat) (table : TreeMap κ β) : Nat :=
  (table.toList.map fun entry => size entry.2).sum

theorem tableSum_eq_add {rest : TreeMap κ β} (size : β → Nat)
    (found : lookup table key = some value)
    (others : lookup rest = update (lookup table) key none) :
    tableSum size table = size value + tableSum size rest := by
  have listed := (toList_perm_cons found others).map fun entry => size entry.2
  rw [tableSum, listed.sum_nat, List.map_cons, List.sum_cons]
  rfl

theorem tableSum_insert_new (size : β → Nat) (value : β) (isNew : lookup table key = none) :
    tableSum size (table.insert key value) = size value + tableSum size table := by
  refine tableSum_eq_add size (by rw [lookup_insert, update_self]) ?_
  rw [lookup_insert, update_idem, eq_comm, update_eq_self_iff, isNew]

theorem tableSum_insert_found (size : β → Nat)
    (changed : β) (found : lookup table key = some value) :
    tableSum size (table.insert key changed) + size value =
      tableSum size table + size changed := by
  have before := tableSum_eq_add size found (lookup_erase table key)
  have after : tableSum size (table.insert key changed) =
      size changed + tableSum size (table.erase key) := by
    refine tableSum_eq_add size (by rw [lookup_insert, update_self]) ?_
    rw [lookup_insert, lookup_erase, update_idem]
  omega

end Lookup

/-! ## Linked tables

`left` holds the items of one party and `right` those of another. An item of
`left` may have a position; `right` then holds its counterpart there, and every
entry of `right` is the counterpart of exactly one item. -/

section Linked

variable {κ ι β γ : Type _}
  {position : β → Option ι} {Represents : κ → β → γ → Prop}
  {left : κ → Option β} {right : ι → Option γ}

structure Linked (position : β → Option ι) (Represents : κ → β → γ → Prop)
    (left : κ → Option β) (right : ι → Option γ) : Prop where
  represented : ∀ key item index, left key = some item → position item = some index →
    ∃ image, right index = some image ∧ Represents key item image
  covered : ∀ index image, right index = some image →
    ∃ key item, left key = some item ∧ position item = some index
  separate : ∀ key key' item item' index, left key = some item → left key' = some item' →
    position item = some index → position item' = some index → key = key'

namespace Linked

theorem empty : Linked position Represents (fun _ => none) (fun _ => none) where
  represented := by simp
  covered := by simp
  separate := by simp

theorem of_eq {left' : κ → Option β} {right' : ι → Option γ}
    (linked : Linked position Represents left right) (sameLeft : left' = left)
    (sameRight : right' = right) : Linked position Represents left' right' := by
  rw [sameLeft, sameRight]
  exact linked

theorem imp (Represents' : κ → β → γ → Prop) (linked : Linked position Represents left right)
    (weaker : ∀ key item image, left key = some item → Represents key item image →
      Represents' key item image) :
    Linked position Represents' left right where
  represented := by
    intro key item index atKey placed
    rcases linked.represented key item index atKey placed with ⟨image, atIndex, holds⟩
    exact ⟨image, atIndex, weaker key item image atKey holds⟩
  covered := linked.covered
  separate := linked.separate

variable [DecidableEq κ]

theorem insert_unplaced (linked : Linked position Represents left right)
    {key : κ} {item : β} (newKey : left key = none) (unplaced : position item = none) :
    Linked position Represents (update left key (some item)) right := by
  have old : ∀ {other found place}, update left key (some item) other = some found →
      position found = some place → left other = some found := by
    intro other found place atOther atPlace
    rcases update_some_eq_some.mp atOther with ⟨_, rfl⟩ | ⟨_, old⟩
    · cases unplaced.symm.trans atPlace
    · exact old
  refine ⟨fun _ _ _ atOther atPlace => linked.represented _ _ _ (old atOther atPlace) atPlace,
    fun place image atPlace => ?_, fun _ _ _ _ _ atFirst atSecond place₁ place₂ =>
      linked.separate _ _ _ _ _ (old atFirst place₁) (old atSecond place₂) place₁ place₂⟩
  rcases linked.covered place image atPlace with ⟨other, found, atOther, foundAt⟩
  refine ⟨other, found, update_some_eq_some.mpr (.inr ⟨?_, atOther⟩), foundAt⟩
  rintro rfl
  cases newKey.symm.trans atOther

theorem erase_unplaced (linked : Linked position Represents left right)
    {key : κ} {item : β} (atKey : left key = some item) (unplaced : position item = none) :
    Linked position Represents (update left key none) right := by
  refine ⟨fun other found place atOther => linked.represented other found place
      (update_none_eq_some.mp atOther).2, fun place image atPlace => ?_,
    fun first second _ _ place atFirst atSecond => linked.separate first second _ _ place
      (update_none_eq_some.mp atFirst).2 (update_none_eq_some.mp atSecond).2⟩
  rcases linked.covered place image atPlace with ⟨other, found, atOther, foundAt⟩
  refine ⟨other, found, update_none_eq_some.mpr ⟨?_, atOther⟩, foundAt⟩
  rintro rfl
  cases atOther.symm.trans atKey
  cases unplaced.symm.trans foundAt

variable [DecidableEq ι]

theorem insert (linked : Linked position Represents left right)
    {key : κ} {item : β} {index : ι} {image : γ}
    (newKey : left key = none) (newIndex : right index = none)
    (placed : position item = some index) (represents : Represents key item image) :
    Linked position Represents (update left key (some item))
      (update right index (some image)) := by
  -- An old item at the new index would already have had a counterpart there.
  have vacant : ∀ {other found}, left other = some found → position found ≠ some index := by
    intro other found atOther atIndex
    rcases linked.represented other found index atOther atIndex with ⟨old, atOld, _⟩
    cases newIndex.symm.trans atOld
  refine ⟨fun other found place atOther atPlace => ?_, fun place old atPlace => ?_,
    fun first second item₁ item₂ place atFirst atSecond place₁ place₂ => ?_⟩
  · rcases update_some_eq_some.mp atOther with ⟨rfl, rfl⟩ | ⟨_, atOld⟩
    · cases placed.symm.trans atPlace
      exact ⟨image, update_self .., represents⟩
    · rcases linked.represented other found place atOld atPlace with ⟨old, there, holds⟩
      refine ⟨old, update_some_eq_some.mpr (.inr ⟨?_, there⟩), holds⟩
      rintro rfl
      exact vacant atOld atPlace
  · rcases update_some_eq_some.mp atPlace with ⟨rfl, rfl⟩ | ⟨_, atOld⟩
    · exact ⟨key, item, update_self .., placed⟩
    · rcases linked.covered place old atOld with ⟨other, found, atOther, foundAt⟩
      refine ⟨other, found, update_some_eq_some.mpr (.inr ⟨?_, atOther⟩), foundAt⟩
      rintro rfl
      cases newKey.symm.trans atOther
  · rcases update_some_eq_some.mp atFirst with ⟨rfl, rfl⟩ | ⟨_, old₁⟩ <;>
      rcases update_some_eq_some.mp atSecond with ⟨rfl, rfl⟩ | ⟨_, old₂⟩
    · rfl
    · exact (vacant old₂ (place₂.trans (place₁.symm.trans placed))).elim
    · exact (vacant old₁ (place₁.trans (place₂.symm.trans placed))).elim
    · exact linked.separate _ _ _ _ _ old₁ old₂ place₁ place₂

theorem erase (linked : Linked position Represents left right) {key : κ} {item : β} {index : ι}
    (atKey : left key = some item) (placed : position item = some index) :
    Linked position Represents (update left key none)
      (update right index none) := by
  refine ⟨fun other found place atOther atPlace => ?_, fun place old atPlace => ?_,
    fun first second _ _ place atFirst atSecond => linked.separate first second _ _ place
      (update_none_eq_some.mp atFirst).2 (update_none_eq_some.mp atSecond).2⟩
  · rcases update_none_eq_some.mp atOther with ⟨different, atOld⟩
    rcases linked.represented other found place atOld atPlace with ⟨old, there, holds⟩
    refine ⟨old, update_none_eq_some.mpr ⟨?_, there⟩, holds⟩
    rintro rfl
    exact different (linked.separate _ _ _ _ _ atOld atKey atPlace placed)
  · rcases update_none_eq_some.mp atPlace with ⟨notIndex, atOld⟩
    rcases linked.covered place old atOld with ⟨other, found, atOther, foundAt⟩
    refine ⟨other, found, update_none_eq_some.mpr ⟨?_, atOther⟩, foundAt⟩
    rintro rfl
    cases atOther.symm.trans atKey
    exact notIndex (Option.some.inj (foundAt.symm.trans placed))

theorem modify (linked : Linked position Represents left right)
    {key : κ} {item item' : β} {index : ι} {image' : γ}
    (atKey : left key = some item) (placed : position item = some index)
    (samePlace : position item' = some index) (represents : Represents key item' image') :
    Linked position Represents (update left key (some item'))
      (update right index (some image')) := by
  have replaced := (linked.erase atKey placed).insert (update_self ..)
    (update_self ..) samePlace represents
  rwa [update_idem, update_idem] at replaced

end Linked

end Linked

/-! ## Values that occur at most once -/

def Fresh {α : Type _} (used : α → Prop) (values : List α) : Prop :=
  values.Nodup ∧ ∀ value ∈ values, ¬ used value

theorem fresh_nil {α : Type _} {used : α → Prop} : Fresh used [] := by simp [Fresh]

theorem fresh_cons {α : Type _} {used : α → Prop} {value : α} {rest : List α} :
    Fresh used (value :: rest) ↔
      ¬ used value ∧ Fresh (fun other => used other ∨ other = value) rest := by
  simp only [Fresh, List.nodup_cons, List.mem_cons, forall_eq_or_imp, not_or]
  constructor
  · rintro ⟨⟨notMember, nodup⟩, notUsed, others⟩
    refine ⟨notUsed, nodup, fun other member => ⟨others other member, ?_⟩⟩
    rintro rfl
    exact notMember member
  · rintro ⟨notUsed, nodup, others⟩
    exact ⟨⟨fun member => (others value member).2 rfl, nodup⟩, notUsed,
      fun other member => (others other member).1⟩

end Philo
