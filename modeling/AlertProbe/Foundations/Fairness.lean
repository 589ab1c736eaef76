import AlertProbe.Foundations.TransitionSystem

/-!
# Infinite runs and fairness

An infinite run of a machine is an endless sequence of states and actions.  A run
is fair to a class of actions if it does not leave them out for good while one of
them is enabled again and again.  The rules below turn fairness into progress.

Main results:

- Theorem `Machine.InfiniteRun.moves_of_fair`: a fair run moves an action class that
  never stays blocked for good.
- Theorem `Machine.InfiniteRun.leadsTo`: a rank that no step raises and that every
  helpful step lowers ends in the goal.
- Theorem `Machine.InfiniteRun.reaches_count`: a counter that always moves on below a
  bound reaches it.
- Theorem `Machine.exists_infiniteRun_of_rounds`: rounds that fit together make an
  infinite run.
-/

namespace Foundations

universe u v

open Filter

namespace Machine

variable {σ : Type u} {α : Type v} {M : Machine σ α}

/-- An endless run from the initial state. -/
structure InfiniteRun (M : Machine σ α) where
  state : ℕ → σ
  action : ℕ → α
  starts : state 0 = M.initial
  steps : ∀ n, M.step (state n) (action n) = .next (state (n + 1))

namespace InfiniteRun

variable (r : M.InfiniteRun)

/-- Strong fairness: if actions of the class are enabled again and again, then they are taken
again and again. -/
def FairTo (A : α → Prop) : Prop :=
  (∃ᶠ n in atTop, ∃ a, A a ∧ M.Enabled (r.state n) a) → ∃ᶠ n in atTop, A (r.action n)

/-- Every state of the run is reachable. -/
theorem reachable (n : ℕ) : M.Reachable (r.state n) := by
  induction n with
  | zero =>
      rw [r.starts]
      exact Relation.ReflTransGen.refl
  | succ n ih => exact Relation.ReflTransGen.tail ih ⟨r.action n, r.steps n⟩

variable {r}

/-- A property that every step behind a position keeps stays. -/
theorem keeps {P : σ → Prop} {N : ℕ}
    (hstep : ∀ n, N ≤ n → P (r.state n) → P (r.state (n + 1))) {m n : ℕ} (hN : N ≤ m)
    (hmn : m ≤ n) (h : P (r.state m)) : P (r.state n) := by
  induction n, hmn using Nat.le_induction with
  | base => exact h
  | succ n hn ih => exact hstep n (le_trans hN hn) ih

/-- A fair run takes actions of a class again and again, if the class is never blocked for
good. -/
theorem moves_of_fair {A : α → Prop} (hfair : r.FairTo A)
    (hunblocked : ∀ N, (∀ n, N ≤ n → ∀ a, A a → ¬ M.Enabled (r.state n) a) → False) :
    ∃ᶠ n in atTop, A (r.action n) := by
  apply hfair
  rw [frequently_atTop]
  intro N
  by_contra hnever
  push Not at hnever
  exact hunblocked N hnever

/-- The ranking rule.  As long as the goal is not reached, every step keeps the premise and
does not raise the rank, and a helpful step lowers it; helpful steps are taken again and
again.  Then the goal is reached. -/
theorem leadsTo (P Q : σ → Prop) (rank : σ → ℕ) (helpful : α → Prop) {N : ℕ}
    (hoften : ∃ᶠ n in atTop, helpful (r.action n))
    (hstep : ∀ n, N ≤ n → P (r.state n) → Q (r.state (n + 1)) ∨
      P (r.state (n + 1)) ∧ rank (r.state (n + 1)) ≤ rank (r.state n) ∧
        (helpful (r.action n) → rank (r.state (n + 1)) < rank (r.state n)))
    {n : ℕ} (hn : N ≤ n) (hP : P (r.state n)) : ∃ m, n ≤ m ∧ Q (r.state m) := by
  induction hrank : rank (r.state n) using Nat.strong_induction_on generalizing n with
  | _ k ih =>
      by_contra hnever
      push Not at hnever
      -- until the next helpful step the premise stays and the rank does not rise
      have hstay : ∀ m, n ≤ m → P (r.state m) ∧ rank (r.state m) ≤ k := by
        intro m hm
        induction m, hm using Nat.le_induction with
        | base => exact ⟨hP, le_of_eq hrank⟩
        | succ m hm ihm =>
            rcases hstep m (le_trans hn hm) ihm.1 with hQ | ⟨hP', hle, _⟩
            · exact absurd hQ (hnever (m + 1) (Nat.le_succ_of_le hm))
            · exact ⟨hP', le_trans hle ihm.2⟩
      rcases frequently_atTop.mp hoften n with ⟨m, hm, hhelpful⟩
      rcases hstep m (le_trans hn hm) (hstay m hm).1 with hQ | ⟨hP', _, hlt⟩
      · exact hnever (m + 1) (Nat.le_succ_of_le hm) hQ
      · have hlower : rank (r.state (m + 1)) < k := lt_of_lt_of_le (hlt hhelpful) (hstay m hm).2
        rcases ih _ hlower (le_trans hn (Nat.le_succ_of_le hm)) hP' rfl with ⟨m', hm', hQ⟩
        exact hnever m' (le_trans (Nat.le_succ_of_le hm) hm') hQ

/-- The counting rule.  A counter that moves on, behind some position, as long as it is below a
bound reaches the bound. -/
theorem reaches_count (count : σ → ℕ) {k N : ℕ}
    (hprogress : ∀ n, N ≤ n → count (r.state n) < k →
      ∃ m, n ≤ m ∧ count (r.state n) < count (r.state m)) {n : ℕ} (hn : N ≤ n) :
    ∃ m, n ≤ m ∧ k ≤ count (r.state m) := by
  induction hgap : k - count (r.state n) using Nat.strong_induction_on generalizing n with
  | _ gap ih =>
      by_cases hdone : k ≤ count (r.state n)
      · exact ⟨n, le_refl n, hdone⟩
      · rcases hprogress n hn (not_le.mp hdone) with ⟨m, hm, hlt⟩
        rcases ih (k - count (r.state m)) (by omega) (le_trans hn hm) rfl with ⟨m', hm', hk⟩
        exact ⟨m', le_trans hm hm', hk⟩

end InfiniteRun

/-! ## Building infinite runs -/

/-- The part of a run that ends in a state has an end of its own. -/
theorem exists_next_of_run_append {s t : σ} {as bs : List α}
    (h : M.run s (as ++ bs) = .next t) : ∃ s', M.run s as = .next s' := by
  rw [run_append] at h
  cases hrun : M.run s as with
  | next s' => exact ⟨s', rfl⟩
  | blocked => simp [hrun, Outcome.bind] at h
  | undefined => simp [hrun, Outcome.bind] at h

/-- A sequence of actions that runs arbitrarily far is the sequence of actions of an infinite
run. -/
theorem exists_infiniteRun (action : ℕ → α)
    (hfar : ∀ n, ∃ m t, n ≤ m ∧ M.run M.initial ((List.range m).map action) = .next t) :
    ∃ r : M.InfiniteRun, r.action = action ∧
      ∀ n, M.run M.initial ((List.range n).map action) = .next (r.state n) := by
  have hall : ∀ n, ∃ s, M.run M.initial ((List.range n).map action) = .next s := by
    intro n
    rcases hfar n with ⟨m, t, hm, hrun⟩
    obtain ⟨k, rfl⟩ := Nat.exists_eq_add_of_le hm
    rw [List.range_add, List.map_append] at hrun
    exact exists_next_of_run_append hrun
  choose state hstate using hall
  have hstarts : state 0 = M.initial := by
    have hzero := hstate 0
    simp only [List.range_zero, List.map_nil, run, Outcome.next.injEq] at hzero
    exact hzero.symm
  have hsteps : ∀ n, M.step (state n) (action n) = .next (state (n + 1)) := by
    intro n
    have hsucc := hstate (n + 1)
    rw [List.range_succ, List.map_append, run_append, hstate n, List.map_singleton] at hsucc
    rcases run_cons_eq_next.mp hsucc with ⟨s', hstep, hend⟩
    cases hend
    exact hstep
  exact ⟨⟨state, action, hstarts, hsteps⟩, rfl, hstate⟩

/-- A run goes on with a run from any state that the first one can end in. -/
theorem EndsIn.append {s : σ} {as bs : List α} {P Q : σ → Prop} (has : M.EndsIn s as P)
    (hbs : ∀ t, P t → M.EndsIn t bs Q) : M.EndsIn s (as ++ bs) Q := by
  unfold EndsIn at has ⊢
  rw [run_append]
  cases hrun : M.run s as with
  | next t =>
      rw [hrun] at has
      exact hbs t has
  | blocked =>
      rw [hrun] at has
      exact has.elim
  | undefined =>
      rw [hrun] at has
      exact has.elim

/-- The end of a run has the property that the run ends in. -/
theorem EndsIn.of_run {s t : σ} {as : List α} {P : σ → Prop} (h : M.EndsIn s as P)
    (hrun : M.run s as = .next t) : P t := by
  rw [EndsIn, hrun] at h
  exact h

/-- A run that ends in a state with a property has an end. -/
theorem EndsIn.exists_next {s : σ} {as : List α} {P : σ → Prop} (h : M.EndsIn s as P) :
    ∃ t, M.run s as = .next t := by
  unfold EndsIn at h
  cases hrun : M.run s as with
  | next t => exact ⟨t, rfl⟩
  | blocked =>
      rw [hrun] at h
      exact h.elim
  | undefined =>
      rw [hrun] at h
      exact h.elim

/-- Rounds of equal length, each of which leads from a state fit for it to a state fit for the
next one, make an infinite run. -/
theorem exists_infiniteRun_of_rounds {k : ℕ} (hk : 0 < k) (round : ℕ → List α)
    (hlength : ∀ q, (round q).length = k) (P : ℕ → σ → Prop) (hstart : P 0 M.initial)
    (hround : ∀ q s, P q s → M.EndsIn s (round q) (P (q + 1))) :
    ∃ r : M.InfiniteRun, (∀ q, P q (r.state (k * q))) ∧
      ∀ q j, j < k → (round q)[j]? = some (r.action (k * q + j)) := by
  have hbound : ∀ n, n % k < (round (n / k)).length := by
    intro n
    rw [hlength]
    exact Nat.mod_lt n hk
  let action : ℕ → α := fun n => (round (n / k)).get ⟨n % k, hbound n⟩
  have haction : ∀ q j, j < k → (round q)[j]? = some (action (k * q + j)) := by
    intro q j hj
    have hdiv : (k * q + j) / k = q := by
      rw [Nat.mul_add_div hk, Nat.div_eq_of_lt hj, Nat.add_zero]
    have hmod : (k * q + j) % k = j := by
      rw [Nat.mul_add_mod, Nat.mod_eq_of_lt hj]
    simp [action, hdiv, hmod, hlength, hj]
  have hrounds : ∀ q, (List.range (k * (q + 1))).map action =
      (List.range (k * q)).map action ++ round q := by
    intro q
    rw [Nat.mul_succ, List.range_add, List.map_append, List.map_map]
    congr 1
    apply List.ext_getElem?
    intro j
    by_cases hj : j < k
    · simp [haction q j hj, hj]
    · simp [hj, hlength]
  have hends : ∀ q, M.EndsIn M.initial ((List.range (k * q)).map action) (P q) := by
    intro q
    induction q with
    | zero => exact hstart
    | succ q ih =>
        rw [hrounds]
        exact ih.append (hround q)
  have hfar : ∀ n, ∃ m t, n ≤ m ∧ M.run M.initial ((List.range m).map action) = .next t := by
    intro n
    rcases (hends n).exists_next with ⟨t, ht⟩
    exact ⟨k * n, t, Nat.le_mul_of_pos_left n hk, ht⟩
  rcases exists_infiniteRun action hfar with ⟨r, haction', hstate⟩
  refine ⟨r, fun q => (hends q).of_run (hstate (k * q)), ?_⟩
  rw [haction']
  exact haction

end Machine

end Foundations
