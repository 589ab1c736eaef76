import AlertProbe.Foundations.TransitionSystem

/-!
# Queues behind a mutex

A singly linked queue with a pointer to its first element, seen as the list of
the elements that the pointer leads to, together with the owner of its mutex.

Main results:

- Theorem `LockedQueue.lock_eq_some`: what a successful lock changes.
- Theorem `rank_lt_of_transGen`: where threads wait only for threads of a lower
  rank, so do chains of threads; none of them is a cycle.
-/

namespace Foundations

universe u v

/-- A queue and the owner of its mutex, if it is locked. -/
structure LockedQueue (θ : Type u) (β : Type v) where
  mutex : Option θ
  first : List β
deriving DecidableEq, Repr

namespace LockedQueue

variable {θ : Type u} {β : Type v}

/-- An unlocked empty queue. -/
def empty : LockedQueue θ β :=
  ⟨none, []⟩

/-- Take the mutex; `none` while somebody owns it. -/
def lock (q : LockedQueue θ β) (owner : θ) : Option (LockedQueue θ β) :=
  match q.mutex with
  | none => some { q with mutex := some owner }
  | some _ => none

/-- Release the mutex. -/
def unlock (q : LockedQueue θ β) : LockedQueue θ β :=
  { q with mutex := none }

/-- Link a new element behind the last one. -/
def append (q : LockedQueue θ β) (value : β) : LockedQueue θ β :=
  { q with first := q.first ++ [value] }

/-- Make the second element the first one. -/
def advance (q : LockedQueue θ β) : LockedQueue θ β :=
  { q with first := q.first.tail }

@[simp]
theorem empty_mutex : (empty : LockedQueue θ β).mutex = none :=
  rfl

@[simp]
theorem empty_first : (empty : LockedQueue θ β).first = [] :=
  rfl

@[simp]
theorem unlock_mutex (q : LockedQueue θ β) : q.unlock.mutex = none :=
  rfl

@[simp]
theorem unlock_first (q : LockedQueue θ β) : q.unlock.first = q.first :=
  rfl

@[simp]
theorem append_mutex (q : LockedQueue θ β) (value : β) :
    (q.append value).mutex = q.mutex :=
  rfl

@[simp]
theorem append_first (q : LockedQueue θ β) (value : β) :
    (q.append value).first = q.first ++ [value] :=
  rfl

@[simp]
theorem advance_mutex (q : LockedQueue θ β) : q.advance.mutex = q.mutex :=
  rfl

@[simp]
theorem advance_first (q : LockedQueue θ β) : q.advance.first = q.first.tail :=
  rfl

/-- A lock succeeds on a free mutex only, and changes nothing but its owner. -/
theorem lock_eq_some {q q' : LockedQueue θ β} {owner : θ} :
    q.lock owner = some q' ↔ q.mutex = none ∧ q' = { q with mutex := some owner } := by
  unfold lock
  split
  · rename_i hfree
    simp [hfree, eq_comm]
  · rename_i other hother
    simp [hother]

/-- A lock fails only while somebody owns the mutex. -/
theorem exists_owner_of_lock {q : LockedQueue θ β} {owner : θ} (h : q.lock owner = none) :
    ∃ other, q.mutex = some other := by
  unfold lock at h
  split at h
  · cases h
  · rename_i other hother
    exact ⟨other, hother⟩

end LockedQueue

/-- If every edge of a waits-for relation leads to a lower rank, then so does every path. -/
theorem rank_lt_of_transGen {θ : Type u} {waitsFor : θ → θ → Prop} (rank : θ → Nat)
    (h : ∀ t u, waitsFor t u → rank u < rank t) {t u : θ}
    (hpath : Relation.TransGen waitsFor t u) : rank u < rank t := by
  induction hpath with
  | single hedge => exact h _ _ hedge
  | tail _ hedge ih => exact lt_trans (h _ _ hedge) ih

end Foundations
