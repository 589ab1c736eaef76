import AlertProbe.Model.Signals

/-!
# Signals during signalsHandler

`signalsHandler` installs its handlers first and assigns `signum` and
`threadIdentifiers` last.  A signal that arrives in between finds a handler that
dereferences NULL.

Main results:

- Theorem `Prepared.step`: when signals arrive late, handlers find both pointers assigned.
- Theorem `early_delivery_faults`: a signal that arrives early can reach the error.
- Theorem `handlers_find_pointers`: the runs in which no handler dereferences NULL.
- Theorem `early_signal_dereferences_null`: a `SIGHUP` behind the first call of `signal`.
-/

namespace AlertProbe

open Foundations

/-- A signal other than `SIGPIPE` arrives only when both pointers have been assigned. -/
def SignalState.arrivesLate (s : SignalState) : SignalAction → Bool
  | .deliver _ signum => signum == SIGPIPE || (s.signum == .set && s.threadIdentifiers == .set)
  | _ => true

/-- The process with signals that arrive late. -/
def lateSignals (nbAddonsThreads : Nat) : Machine SignalState SignalAction :=
  (signals nbAddonsThreads).restrict fun s a => s.arrivesLate a = true

/-! ## Late signals -/

/-- Who needs a pointer finds it assigned. -/
structure Prepared (s : SignalState) : Prop where
  waiting : s.main = .waitForShutdown → s.signum = .set ∧ s.threadIdentifiers = .set
  between : s.main = .assignThreadIdentifiers → s.signum = .set
  handlers : ∀ h ∈ s.handlers,
    (h.signum = SIGPIPE ∧ h.pc = .log) ∨ (s.signum = .set ∧ s.threadIdentifiers = .set)

/-- Where `main` needs no pointer, only handlers do. -/
theorem Prepared.of_handlers {s : SignalState} (hwaiting : s.main ≠ .waitForShutdown)
    (hbetween : s.main ≠ .assignThreadIdentifiers)
    (hhandlers : ∀ h ∈ s.handlers,
      (h.signum = SIGPIPE ∧ h.pc = .log) ∨ (s.signum = .set ∧ s.threadIdentifiers = .set)) :
    Prepared s where
  waiting hmain := absurd hmain hwaiting
  between hmain := absurd hmain hbetween
  handlers := hhandlers

/-- Nobody needs a pointer at first. -/
theorem prepared_start : Prepared SignalState.start := by
  apply Prepared.of_handlers (by decide) (by decide)
  intro h hmem
  cases hmem

/-- `main` never takes an assignment back. -/
theorem Prepared.mainStep {s s' : SignalState} (hs : Prepared s) (hstep : MainStep s s') :
    Prepared s' := by
  have hkeep : ∀ h ∈ s.handlers, (h.signum = SIGPIPE ∧ h.pc = .log) ∨
      (s.signum = .set ∧ s.threadIdentifiers = .set) := hs.handlers
  cases hstep with
  | install hpc hlt => exact .of_handlers (by simp) (by simp) hkeep
  | assignSignum hpc hend =>
      refine ⟨?_, ?_, ?_⟩
      · intro hmain
        cases hmain
      · intro _
        rfl
      · intro h hmem
        exact (hkeep h hmem).imp_right fun hboth => ⟨rfl, hboth.2⟩
  | assignThreadIdentifiers hpc =>
      have hsignum := hs.between hpc
      refine ⟨?_, ?_, ?_⟩
      · intro _
        exact ⟨hsignum, rfl⟩
      · intro hmain
        cases hmain
      · intro h hmem
        exact Or.inr ⟨hsignum, rfl⟩
  | join hpc hvalue => exact .of_handlers (by simp) (by simp) hkeep
  | store hpc => exact .of_handlers (by simp) (by simp) hkeep
  | decide hpc => exact .of_handlers (by simp) (by simp) hkeep

/-- A handler that moves is one for `SIGPIPE` at its first line, or both pointers have been
assigned. -/
theorem Prepared.handlerStep {nbAddonsThreads : Nat} {newer older : List Handler} {h : Handler}
    {s s' : SignalState} (hs : Prepared s) (hsplit : s.handlers = newer ++ h :: older)
    (hstep : HandlerStep nbAddonsThreads newer h older s s') : Prepared s' := by
  obtain ⟨hmain, _, hsignum, hthreads⟩ := hstep.frame
  have hmem : h ∈ s.handlers := by
    rw [hsplit]
    exact List.mem_append_cons_self
  refine ⟨?_, ?_, ?_⟩
  · rw [hmain, hsignum, hthreads]
    exact hs.waiting
  · rw [hmain, hsignum]
    exact hs.between
  · rw [hsignum, hthreads]
    intro x hx
    rcases hs.handlers h hmem with ⟨hpipe, hpc⟩ | hboth
    · -- The handler for `SIGPIPE` ends the process without touching the list.
      cases hstep with
      | abort _ _ => exact hs.handlers x hx
      | log _ hother => exact absurd hpipe hother
      | sawZero htest _ _ => cases hpc.symm.trans htest
      | sawSignal htest _ _ => cases hpc.symm.trans htest
      | assign hassign _ => cases hpc.symm.trans hassign
      | cancel hcancel _ _ => cases hpc.symm.trans hcancel
      | finish hcancel _ _ => cases hpc.symm.trans hcancel
    · exact Or.inr hboth

/-- When signals arrive late, handlers find both pointers assigned. -/
theorem Prepared.step {nbAddonsThreads : Nat} {s s' : SignalState} {a : SignalAction}
    (hs : Prepared s) (hlate : s.arrivesLate a = true)
    (hstep : SignalStep nbAddonsThreads s a s') : Prepared s' := by
  cases hstep with
  | main _ hmain => exact hs.mainStep hmain
  | handler hsplit _ hhandler => exact hs.handlerStep hsplit hhandler
  | deliver hinstalled hunblocked =>
      refine ⟨hs.waiting, hs.between, ?_⟩
      intro h hmem
      rcases List.mem_cons.mp hmem with rfl | holder
      · simp only [SignalState.arrivesLate, Bool.or_eq_true, beq_iff_eq, Bool.and_eq_true] at hlate
        exact hlate.imp_left fun hpipe => ⟨hpipe, rfl⟩
      · exact hs.handlers h holder

/-- In every run whose signals arrive late, who needs a pointer finds it assigned. -/
theorem prepared_reachable {nbAddonsThreads : Nat} {s : SignalState}
    (h : (lateSignals nbAddonsThreads).Reachable s) : Prepared s := by
  apply h.invariant prepared_start
  intro s a s' hs hstep
  obtain ⟨hlate, hmove⟩ := Machine.restrict_step_eq_next.mp hstep
  exact hs.step hlate (signals_cases hmove)

/-! ## Early signals -/

/-- A signal other than `SIGPIPE` that arrives before both pointers have been assigned, while
`*signum` is zero, is handled by a handler that dereferences NULL if nothing delays it. -/
theorem early_delivery_faults {nbAddonsThreads thread : Nat} {signum : Int}
    {s s' : SignalState} (hvalue : s.value = 0)
    (hearly : s.arrivesLate (.deliver thread signum) = false)
    (hstep : (signals nbAddonsThreads).step s (.deliver thread signum) = .next s') :
    ∃ as, (signals nbAddonsThreads).run s' as = .undefined := by
  have hended : s.ended = false := by
    cases hended : s.ended with
    | false => rfl
    | true => simp [signals, signalStep, hended] at hstep
  simp only [SignalState.arrivesLate, Bool.or_eq_false_iff, beq_eq_false_iff_ne, ne_eq,
    Bool.and_eq_false_iff] at hearly
  obtain ⟨hpipe, hnull⟩ := hearly
  cases signals_cases hstep with
  | deliver hinstalled hunblocked =>
      let delivered : SignalState := { s with handlers := ⟨thread, signum, .log⟩ :: s.handlers }
      let logged : SignalState :=
        { s with
          handlers := ⟨thread, signum, .test⟩ :: s.handlers
          logs := s.logs ++ [signalLog signum] }
      have hlog : (signals nbAddonsThreads).step delivered (.handler 0) = .next logged :=
        signalStep_log (h := ⟨thread, signum, .log⟩) hended rfl rfl hpipe
      by_cases hsignum : s.signum = .set
      · -- The handler gets as far as the bound of its loop.
        have hthreads : s.threadIdentifiers = .null := by
          cases hthreads : s.threadIdentifiers with
          | null => rfl
          | set => simp [hsignum, hthreads] at hnull
        let tested : SignalState :=
          { logged with handlers := ⟨thread, signum, .assign⟩ :: s.handlers }
        let assigned : SignalState :=
          { logged with
            value := signum
            handlers := ⟨thread, signum, .cancel 0⟩ :: s.handlers
            assigned := s.assigned ++ [signum] }
        have htest : (signals nbAddonsThreads).step logged (.handler 0) = .next tested :=
          signalStep_sawZero (h := ⟨thread, signum, .test⟩) hended rfl rfl hsignum hvalue
        have hassign : (signals nbAddonsThreads).step tested (.handler 0) = .next assigned :=
          signalStep_assign (h := ⟨thread, signum, .assign⟩) hended rfl rfl hsignum
        have hbound : (signals nbAddonsThreads).step assigned (.handler 0) = .undefined := by
          rw [signalStep_last (s := assigned) hended rfl]
          simp [signalHandling, hthreads, assigned, logged]
        refine ⟨[.handler 0, .handler 0, .handler 0, .handler 0], ?_⟩
        rw [Machine.run_cons_of_next hlog, Machine.run_cons_of_next htest,
          Machine.run_cons_of_next hassign, Machine.run, hbound]
      · have hsignum : s.signum = .null := by
          by_contra hset
          exact hsignum (Pointer.ne_null.mp hset)
        have htest : (signals nbAddonsThreads).step logged (.handler 0) = .undefined := by
          rw [signalStep_last (s := logged) hended rfl]
          simp [signalHandling, hsignum, logged]
        refine ⟨[.handler 0, .handler 0], ?_⟩
        rw [Machine.run_cons_of_next hlog, Machine.run, htest]

/-- No handler dereferences NULL in a run whose signals, `SIGPIPE` apart, arrive when both
pointers have been assigned; and every one that arrives earlier can lead to the error as long as
`*signum` is zero. -/
theorem handlers_find_pointers (nbAddonsThreads : Nat) :
    (∀ s, (lateSignals nbAddonsThreads).Reachable s →
      ∀ a, (signals nbAddonsThreads).step s a ≠ .undefined) ∧
    ∀ s, (signals nbAddonsThreads).Reachable s → s.value = 0 →
      ∀ thread signum s', s.arrivesLate (.deliver thread signum) = false →
        (signals nbAddonsThreads).step s (.deliver thread signum) = .next s' →
          ∃ as, (signals nbAddonsThreads).run s' as = .undefined := by
  constructor
  · intro s hs a hundefined
    have hprepared := prepared_reachable hs
    obtain ⟨hnull, hneeded⟩ := signals_undefined hundefined
    have hboth : s.signum = .set ∧ s.threadIdentifiers = .set := by
      rcases hneeded with hmain | ⟨handler, hmem, hpc⟩
      · exact hprepared.waiting hmain
      · rcases hprepared.handlers handler hmem with ⟨_, hlog⟩ | hboth
        · exact absurd hlog hpc
        · exact hboth
    rw [hboth.1, hboth.2] at hnull
    revert hnull
    decide
  · intro s _ hvalue thread signum s' hearly hstep
    exact early_delivery_faults hvalue hearly hstep

/-- A `SIGHUP` that arrives when only its own handler has been installed makes `signalHandling`
dereference NULL. -/
theorem early_signal_dereferences_null :
    ∃ s, (signals 1).Reachable s ∧ SIGHUP ∈ s.installed ∧
      s.handlers = [⟨0, SIGHUP, .test⟩] ∧ s.signum = .null ∧
      (signals 1).step s (.handler 0) = .undefined := by
  have hrun : (signals 1).EndsIn SignalState.start [.main, .deliver 0 SIGHUP, .handler 0]
      (fun s => SIGHUP ∈ s.installed ∧ s.handlers = [⟨0, SIGHUP, .test⟩] ∧ s.signum = .null ∧
        (signals 1).step s (.handler 0) = .undefined) := by
    decide
  exact Machine.exists_reachable_of_endsIn hrun

end AlertProbe
