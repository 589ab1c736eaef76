import Mathlib

/-!
# Transition systems with blocking and undefined behaviour

A machine has one initial state and a step function.  An action can be blocked
in a state, can lead to a next state, or can have undefined behaviour, in which
case the run has no further state to speak of.  Runs are lists of actions, so a
concrete run is executed by evaluation.

Main results:

- Theorem `Machine.Reachable.invariant`: a property that holds initially and is
  kept by every step holds in every reachable state.
- Theorem `Machine.Reachable.map`: an abstraction function whose image of a step
  is a stutter or an abstract step maps reachable states to reachable states.
- Theorem `Machine.run_length_le`: a measure that every step decreases bounds the
  length of every run.
-/

namespace Foundations

universe u v w

/-- What one action does in one state. -/
inductive Outcome (σ : Type u) where
  | blocked
  | undefined
  | next (state : σ)
deriving DecidableEq, Repr

/-- There is a next state and it has the property. -/
def Outcome.Holds {σ : Type u} (P : σ → Prop) : Outcome σ → Prop
  | .next state => P state
  | _ => False

instance {σ : Type u} (P : σ → Prop) [DecidablePred P] : DecidablePred (Outcome.Holds P)
  | .next state => inferInstanceAs (Decidable (P state))
  | .blocked => inferInstanceAs (Decidable False)
  | .undefined => inferInstanceAs (Decidable False)

/-- Go on from the next state, if there is one. -/
def Outcome.bind {σ : Type u} {τ : Type w} (o : Outcome σ) (f : σ → Outcome τ) : Outcome τ :=
  match o with
  | .blocked => .blocked
  | .undefined => .undefined
  | .next state => f state

/-- The same outcome, with a view of the next state. -/
def Outcome.map {σ : Type u} {τ : Type w} (f : σ → τ) (o : Outcome σ) : Outcome τ :=
  o.bind fun state => .next (f state)

/-- A view of a next state is one of the next state that there is. -/
theorem Outcome.map_eq_next {σ : Type u} {τ : Type w} {f : σ → τ} {o : Outcome σ} {t : τ}
    (h : o.map f = .next t) : ∃ s, o = .next s ∧ f s = t := by
  cases o with
  | blocked => cases h
  | undefined => cases h
  | next s =>
      cases h
      exact ⟨s, rfl, rfl⟩

/-- An initial state and the effect of every action. -/
structure Machine (σ : Type u) (α : Type v) where
  initial : σ
  step : σ → α → Outcome σ

namespace Machine

variable {σ : Type u} {α : Type v} (M : Machine σ α)

/-- One step by some action. -/
def Step (s s' : σ) : Prop :=
  ∃ a, M.step s a = .next s'

/-- States that some run leads to from `s`. -/
def ReachableFrom (s t : σ) : Prop :=
  Relation.ReflTransGen M.Step s t

/-- States that some run leads to from the initial state. -/
def Reachable (s : σ) : Prop :=
  M.ReachableFrom M.initial s

/-- The action is not waiting for anything in `s`. -/
def Enabled (s : σ) (a : α) : Prop :=
  M.step s a ≠ .blocked

/-- Execute a list of actions. -/
def run (s : σ) : List α → Outcome σ
  | [] => .next s
  | a :: as =>
      match M.step s a with
      | .blocked => .blocked
      | .undefined => .undefined
      | .next s' => run s' as

/-- The machine whose actions are limited to those that `ok` admits. -/
def restrict (ok : σ → α → Prop) [∀ s a, Decidable (ok s a)] : Machine σ α where
  initial := M.initial
  step s a := if ok s a then M.step s a else .blocked

variable {M}

/-! ## Runs and reachable states -/

/-- A nonempty run that ends in a state starts with a step. -/
theorem run_cons_eq_next {s t : σ} {a : α} {as : List α} :
    M.run s (a :: as) = .next t ↔
      ∃ s', M.step s a = .next s' ∧ M.run s' as = .next t := by
  rw [run]
  cases h : M.step s a with
  | blocked => simp
  | undefined => simp
  | next s' => simp

/-- A run that starts with a step goes on behind it. -/
theorem run_cons_of_next {s s' : σ} {a : α} (h : M.step s a = .next s') (as : List α) :
    M.run s (a :: as) = M.run s' as := by
  rw [run, h]

/-- A run of two lists of actions is a run of the second from the end of the first. -/
theorem run_append (s : σ) (as bs : List α) :
    M.run s (as ++ bs) = (M.run s as).bind fun s' => M.run s' bs := by
  induction as generalizing s with
  | nil => rfl
  | cons a as ih =>
      rw [List.cons_append, run, run]
      cases M.step s a with
      | blocked => rfl
      | undefined => rfl
      | next s' => exact ih s'

/-- The end of a run is reachable from its start. -/
theorem reachableFrom_of_run {s t : σ} {as : List α} (h : M.run s as = .next t) :
    M.ReachableFrom s t := by
  induction as generalizing s with
  | nil =>
      cases h
      exact Relation.ReflTransGen.refl
  | cons a as ih =>
      obtain ⟨s', hstep, hrest⟩ := run_cons_eq_next.mp h
      exact Relation.ReflTransGen.head ⟨a, hstep⟩ (ih hrest)

/-- The run from `s` ends in a state with the property `P`. -/
def EndsIn (M : Machine σ α) (s : σ) (as : List α) (P : σ → Prop) : Prop :=
  (M.run s as).Holds P

instance (s : σ) (as : List α) (P : σ → Prop) [DecidablePred P] :
    Decidable (M.EndsIn s as P) :=
  inferInstanceAs (Decidable ((M.run s as).Holds P))

/-- A run from `s` whose end has a property shows that a state reachable from `s` has it. -/
theorem exists_reachableFrom_of_endsIn {s : σ} {as : List α} {P : σ → Prop}
    (h : M.EndsIn s as P) : ∃ t, M.ReachableFrom s t ∧ P t := by
  unfold EndsIn at h
  cases hrun : M.run s as with
  | next t =>
      rw [hrun] at h
      exact ⟨t, reachableFrom_of_run hrun, h⟩
  | blocked =>
      rw [hrun] at h
      exact h.elim
  | undefined =>
      rw [hrun] at h
      exact h.elim

/-- A run whose end has a property shows that a reachable state has it. -/
theorem exists_reachable_of_endsIn {as : List α} {P : σ → Prop}
    (h : M.EndsIn M.initial as P) : ∃ s, M.Reachable s ∧ P s :=
  exists_reachableFrom_of_endsIn h

/-! ## Invariants -/

/-- A property of `s` that every step keeps holds in every state reachable from `s`. -/
theorem ReachableFrom.invariant {P : σ → Prop} {s t : σ} (h : M.ReachableFrom s t)
    (hs : P s) (hstep : ∀ s a s', P s → M.step s a = .next s' → P s') : P t := by
  induction h with
  | refl => exact hs
  | tail _ hlast ih =>
      obtain ⟨a, ha⟩ := hlast
      exact hstep _ a _ ih ha

/-- The invariant rule. -/
theorem Reachable.invariant {P : σ → Prop} {s : σ} (h : M.Reachable s)
    (hinit : P M.initial) (hstep : ∀ s a s', P s → M.step s a = .next s' → P s') : P s :=
  ReachableFrom.invariant h hinit hstep

/-- The invariant rule with the reachability of the state before the step at hand, so that
invariants proved earlier can be used. -/
theorem Reachable.invariant' {P : σ → Prop} {s : σ} (h : M.Reachable s)
    (hinit : P M.initial)
    (hstep : ∀ s a s', M.Reachable s → P s → M.step s a = .next s' → P s') : P s := by
  have hboth : M.Reachable s ∧ P s := by
    refine h.invariant (P := fun s => M.Reachable s ∧ P s)
      ⟨Relation.ReflTransGen.refl, hinit⟩ ?_
    rintro s a s' ⟨hs, hP⟩ ha
    exact ⟨Relation.ReflTransGen.tail hs ⟨a, ha⟩, hstep s a s' hs hP ha⟩
  exact hboth.2

/-- A state reached from a reachable state is reachable. -/
theorem Reachable.trans {s t : σ} (hs : M.Reachable s) (ht : M.ReachableFrom s t) :
    M.Reachable t :=
  Relation.ReflTransGen.trans hs ht

/-! ## Limited machines -/

section Restrict

variable {ok : σ → α → Prop} [∀ s a, Decidable (ok s a)]

@[simp]
theorem restrict_step_eq_next {s s' : σ} {a : α} :
    (M.restrict ok).step s a = .next s' ↔ ok s a ∧ M.step s a = .next s' := by
  by_cases h : ok s a <;> simp [restrict, h]

/-- A run of the limited machine is a run of the machine. -/
theorem ReachableFrom.of_restrict {s t : σ} (h : (M.restrict ok).ReachableFrom s t) :
    M.ReachableFrom s t := by
  refine Relation.ReflTransGen.mono ?_ _ _ h
  rintro s s' ⟨a, ha⟩
  exact ⟨a, (restrict_step_eq_next.mp ha).2⟩

/-- A state that the limited machine reaches is reached by the machine. -/
theorem Reachable.of_restrict {s : σ} (h : (M.restrict ok).Reachable s) : M.Reachable s :=
  ReachableFrom.of_restrict h

end Restrict

/-! ## Termination and refinement -/

/-- A measure that every step decreases, under an invariant, bounds the length of a run. -/
theorem run_length_le {P : σ → Prop} {μ : σ → Nat}
    (hstep : ∀ s a s', P s → M.step s a = .next s' → P s' ∧ μ s' < μ s)
    {s t : σ} {as : List α} (hs : P s) (h : M.run s as = .next t) :
    as.length ≤ μ s := by
  induction as generalizing s with
  | nil => exact Nat.zero_le _
  | cons a as ih =>
      obtain ⟨s', ha, hrest⟩ := run_cons_eq_next.mp h
      obtain ⟨hs', hlt⟩ := hstep s a s' hs ha
      have htail : as.length ≤ μ s' := ih hs' hrest
      simp only [List.length_cons]
      omega

/-- Refinement by an abstraction function: every step of a reachable state is a stutter or a
step of the abstract machine. -/
theorem Reachable.map {τ : Type w} {β : Type*} {N : Machine τ β} (abs : σ → τ)
    (hinit : abs M.initial = N.initial)
    (hstep : ∀ s a s', M.Reachable s → M.step s a = .next s' →
      abs s' = abs s ∨ N.Step (abs s) (abs s'))
    {s : σ} (h : M.Reachable s) : N.Reachable (abs s) := by
  refine h.invariant' (P := fun s => N.Reachable (abs s)) ?_ ?_
  · rw [hinit]
    exact Relation.ReflTransGen.refl
  · intro s a s' hs hN ha
    rcases hstep s a s' hs ha with hstutter | hmove
    · rw [hstutter]
      exact hN
    · exact Relation.ReflTransGen.tail hN hmove

end Machine

end Foundations
