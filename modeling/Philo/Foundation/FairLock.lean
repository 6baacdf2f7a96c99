import Mathlib.Data.List.Nodup

/-! A fair lock for suspended tasks. The tasks stand in one line: its head has the
lock, even before it runs again, and whoever comes later queues up behind. -/

namespace Philo

structure FairLock (Task : Type) where
  line : List Task

/-- Where a task stands with the lock. A waiting task may have been handed it. -/
inductive LockStage where
  | outside
  | waiting
  | holding
  deriving DecidableEq

namespace FairLock

variable {Task : Type}

def free : FairLock Task := ⟨[]⟩

def holder (lock : FairLock Task) : Option Task := lock.line.head?

def enter (lock : FairLock Task) (task : Task) : FairLock Task := ⟨lock.line ++ [task]⟩

structure Consistent (lock : FairLock Task) (stage : Task → LockStage) : Prop where
  nodup : lock.line.Nodup
  inside : ∀ task, task ∈ lock.line ↔ stage task ≠ .outside
  holding : ∀ task, stage task = .holding → lock.holder = some task

variable {lock : FairLock Task} {stage : Task → LockStage} {task : Task}

theorem consistent_free : Consistent (free : FairLock Task) fun _ => .outside := by
  constructor <;> simp [free]

/-- While a task waits, some task has the lock: it is in its critical section, or
it was handed the lock and can go on. -/
theorem Consistent.exists_holder (consistent : Consistent lock stage)
    (waits : stage task = .waiting) :
    ∃ other, lock.holder = some other ∧ stage other ≠ .outside := by
  have inLine : task ∈ lock.line := (consistent.inside task).mpr (by simp [waits])
  cases line : lock.line with
  | nil => simp [line] at inLine
  | cons first rest =>
    have firstInside := (consistent.inside first).mp (by simp [line])
    exact ⟨first, by simp [holder, line], firstInside⟩

variable [DecidableEq Task]

def leave (lock : FairLock Task) (task : Task) : FairLock Task := ⟨lock.line.erase task⟩

theorem Consistent.enter (consistent : Consistent lock stage) (task : Task)
    (stands : stage task = .outside) {target : LockStage} (isInside : target ≠ .outside)
    (granted : target = .holding → lock.holder = none) :
    Consistent (lock.enter task) (Function.update stage task target) := by
  have absent : task ∉ lock.line := by simp [consistent.inside, stands]
  constructor
  · simpa [FairLock.enter, List.nodup_append] using
      ⟨consistent.nodup, fun other member same => absent (same ▸ member)⟩
  · intro other
    by_cases same : other = task
    · simp [FairLock.enter, same, isInside]
    · simp [FairLock.enter, same, consistent.inside]
  · intro other stands
    by_cases same : other = task
    · subst same
      have isFree := granted (by simpa using stands)
      simp only [holder, List.head?_eq_none_iff] at isFree
      simp [FairLock.enter, holder, isFree]
    · have holds := consistent.holding other (by simpa [same] using stands)
      simp only [holder] at holds
      simp [FairLock.enter, holder, List.head?_append, holds]

theorem Consistent.grant (consistent : Consistent lock stage) (holds : lock.holder = some task) :
    Consistent lock (Function.update stage task .holding) := by
  have member : task ∈ lock.line := List.mem_of_head? holds
  constructor
  · exact consistent.nodup
  · intro other
    by_cases same : other = task
    · simp [same, member]
    · simp [same, consistent.inside]
  · intro other stands
    by_cases same : other = task
    · rw [same, holds]
    · exact consistent.holding other (by simpa [same] using stands)

theorem Consistent.leave (consistent : Consistent lock stage) (task : Task) :
    Consistent (lock.leave task) (Function.update stage task .outside) := by
  constructor
  · exact consistent.nodup.erase task
  · intro other
    by_cases same : other = task
    · simp [FairLock.leave, same, consistent.nodup.mem_erase_iff]
    · simp [FairLock.leave, same, consistent.nodup.mem_erase_iff, consistent.inside]
  · intro other stands
    by_cases same : other = task
    · simp [same] at stands
    · have holds := consistent.holding other (by simpa [same] using stands)
      cases line : lock.line with
      | nil => simp [holder, line] at holds
      | cons first rest =>
        have isFirst : first = other := by simpa [holder, line] using holds
        simp [FairLock.leave, holder, line, isFirst, same]

end FairLock

end Philo
