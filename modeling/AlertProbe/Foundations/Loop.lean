import Mathlib

/-!
# Counted loops

A loop is a guard and a body, and the body has no result where its behaviour is
undefined.  Loops are followed by the number of their iterations, so a loop
that never ends is a loop whose guard holds after any number of iterations.  A
counted loop is one whose body adds one to a counter that starts again at zero
when it leaves its range.

Main results:

- Theorem `Loop.exists_iterate`: an invariant that every iteration keeps leads
  the loop through any number of iterations that its guard admits.
- Theorem `Loop.TerminatesAfter.unique`: a loop ends at most once.
- Theorem `Loop.Counts.counter_iterate`: what a counter shows after a number of
  iterations.
- Theorem `Loop.Counts.not_terminatesAfter`: a counter that cannot reach its
  bound keeps its loop from ending.
-/

namespace Foundations

universe u

/-- A loop `for (; guard; ) body`. -/
structure Loop (σ : Type u) where
  guard : σ → Bool
  body : σ → Option σ

namespace Loop

variable {σ : Type u} (L : Loop σ)

/-- The state after exactly `n` iterations; `none` when the loop ends earlier or one of them is
undefined. -/
def iterate : Nat → σ → Option σ
  | 0, s => some s
  | n + 1, s => if L.guard s then (L.body s).bind (iterate n) else none

/-- From `s` the loop makes exactly `n` iterations and ends in `t`. -/
def TerminatesAfter (n : Nat) (s t : σ) : Prop :=
  L.iterate n s = some t ∧ L.guard t = false

variable {L}

/-- The last of several iterations. -/
theorem iterate_succ {n : Nat} {s u : σ} :
    L.iterate (n + 1) s = some u ↔
      ∃ t, L.iterate n s = some t ∧ L.guard t = true ∧ L.body t = some u := by
  induction n generalizing s with
  | zero =>
      by_cases h : L.guard s = true <;> simp [iterate, h]
  | succ n ih =>
      rw [iterate]
      by_cases h : L.guard s = true
      · simp only [h, if_true, Option.bind_eq_some_iff, ih]
        constructor
        · rintro ⟨s', hbody, t, hiterate, hlast⟩
          exact ⟨t, by rw [iterate, if_pos h, hbody]; exact hiterate, hlast⟩
        · rintro ⟨t, hiterate, hlast⟩
          rw [iterate, if_pos h, Option.bind_eq_some_iff] at hiterate
          obtain ⟨s', hbody, hrest⟩ := hiterate
          exact ⟨s', hbody, t, hrest, hlast⟩
      · simp [h, iterate]

/-- More iterations go through fewer. -/
theorem iterate_of_le {m n : Nat} (hmn : m ≤ n) {s u : σ} (h : L.iterate n s = some u) :
    ∃ t, L.iterate m s = some t := by
  induction n, hmn using Nat.le_induction generalizing u with
  | base => exact ⟨u, h⟩
  | succ n _ ih =>
      obtain ⟨t, ht, _⟩ := iterate_succ.mp h
      exact ih ht

/-- Where more iterations follow, the guard admits the next one. -/
theorem guard_of_lt {m n : Nat} (hmn : m < n) {s t u : σ} (ht : L.iterate m s = some t)
    (hu : L.iterate n s = some u) : L.guard t = true := by
  obtain ⟨u', hu'⟩ := iterate_of_le (Nat.succ_le_of_lt hmn) hu
  obtain ⟨t', ht', hguard, _⟩ := iterate_succ.mp hu'
  rw [ht, Option.some.injEq] at ht'
  rw [ht']
  exact hguard

/-- A loop ends at most once. -/
theorem TerminatesAfter.unique {m n : Nat} {s t u : σ} (ht : L.TerminatesAfter m s t)
    (hu : L.TerminatesAfter n s u) : m = n ∧ t = u := by
  have hmn : m = n := by
    rcases Nat.lt_trichotomy m n with hlt | heq | hlt
    · have hguard := guard_of_lt hlt ht.1 hu.1
      rw [ht.2] at hguard
      cases hguard
    · exact heq
    · have hguard := guard_of_lt hlt hu.1 ht.1
      rw [hu.2] at hguard
      cases hguard
  subst hmn
  refine ⟨rfl, ?_⟩
  have heq := ht.1.symm.trans hu.1
  exact Option.some.inj heq

/-- The invariant rule: what every iteration keeps holds after any number of them. -/
theorem iterate_invariant {I : Nat → σ → Prop}
    (hstep : ∀ n t u, I n t → L.guard t = true → L.body t = some u → I (n + 1) u)
    {s t : σ} (hs : I 0 s) {n : Nat} (h : L.iterate n s = some t) : I n t := by
  induction n generalizing t with
  | zero =>
      cases h
      exact hs
  | succ n ih =>
      obtain ⟨u, hu, hguard, hbody⟩ := iterate_succ.mp h
      exact hstep n u t (ih hu) hguard hbody

/-- An invariant under which the loop goes on leads through as many iterations as it covers. -/
theorem exists_iterate {I : Nat → σ → Prop} {bound : Nat}
    (hstep : ∀ n t, n < bound → I n t →
      L.guard t = true ∧ ∃ u, L.body t = some u ∧ I (n + 1) u)
    {s : σ} (hs : I 0 s) {n : Nat} (hn : n ≤ bound) :
    ∃ t, L.iterate n s = some t ∧ I n t := by
  induction n with
  | zero => exact ⟨s, rfl, hs⟩
  | succ n ih =>
      obtain ⟨t, ht, hI⟩ := ih (by omega)
      obtain ⟨hguard, u, hbody, hI'⟩ := hstep n t (by omega) hI
      exact ⟨u, iterate_succ.mpr ⟨t, ht, hguard, hbody⟩, hI'⟩

/-! ## Counters -/

/-- The loop counts up to `bound` with a counter that has `size` values. -/
structure Counts (L : Loop σ) (counter : σ → Nat) (size bound : Nat) : Prop where
  guard_iff : ∀ s, L.guard s = true ↔ counter s < bound
  counter_lt : ∀ s, counter s < size
  body_counter : ∀ s t, L.body s = some t → counter t = (counter s + 1) % size

section Counter

variable {counter : σ → Nat} {size bound : Nat} (hcounts : L.Counts counter size bound)

include hcounts

/-- A counter that starts at zero shows the number of iterations, less its turns. -/
theorem Counts.counter_iterate {s t : σ} (hs : counter s = 0) {n : Nat}
    (h : L.iterate n s = some t) : counter t = n % size := by
  refine iterate_invariant (I := fun n t => counter t = n % size) ?_ ?_ h
  · intro n t u ht _ hbody
    rw [hcounts.body_counter t u hbody, ht, Nat.mod_add_mod]
  · rw [hs, Nat.zero_mod]

/-- A counter that can reach its bound ends the loop there. -/
theorem Counts.terminatesAfter_bound (hbound : bound < size) {s t : σ} (hs : counter s = 0)
    (h : L.iterate bound s = some t) : L.TerminatesAfter bound s t := by
  refine ⟨h, ?_⟩
  have hcounter := hcounts.counter_iterate hs h
  rw [Nat.mod_eq_of_lt hbound] at hcounter
  rw [← Bool.not_eq_true, hcounts.guard_iff, hcounter]
  exact lt_irrefl bound

/-- A counter that cannot reach its bound never ends the loop. -/
theorem Counts.not_terminatesAfter (hbound : size ≤ bound) (n : Nat) (s t : σ) :
    ¬ L.TerminatesAfter n s t := by
  intro h
  have hguard : L.guard t = true :=
    (hcounts.guard_iff t).mpr (lt_of_lt_of_le (hcounts.counter_lt t) hbound)
  rw [h.2] at hguard
  cases hguard

end Counter

end Loop

end Foundations
