import AlertProbe.Model.Signals

/-!
# The first signal

`signalHandling` tests `*signum` and assigns to it in two steps.  A handler that is
interrupted between them by the handler of another signal lets both assign, and both
cancel every addon thread.

Main results:

- Theorem `FirstWins.step`: what a step keeps when handlers test alone.
- Theorem `first_signal_wins`: in every run whose handlers test alone, the first signal stays
  and every addon thread is cancelled once.
- Theorem `nested_signal_overwrites`: a `SIGHUP` during the handling of a `SIGTERM`.
-/

namespace AlertProbe

open Foundations

/-- What `signalsHandler` promises for a run that goes on from `s` in the machine `M`: the first
signal that is assigned to `*signum` stays there, decides whether `main` restarts the probe, and
cancels every addon thread once. -/
structure FirstSignalWins (M : Machine SignalState SignalAction) (nbAddonsThreads : Nat)
    (s : SignalState) : Prop where
  stays : s.value ≠ 0 → ∀ t, M.ReachableFrom s t → t.value = s.value
  first : s.value ≠ 0 → s.assigned.head? = some s.value
  atMostOnce : ∀ i, s.cancels.count i ≤ 1
  onlyAddons : ∀ i ∈ s.cancels, i < nbAddonsThreads
  exactlyOnce : s.value ≠ 0 → s.handlers = [] → ∀ i < nbAddonsThreads, s.cancels.count i = 1
  decision : ∀ restarts, s.main = .decided restarts →
    ∃ signum, s.assigned.head? = some signum ∧ restarts = (signum == SIGHUP)

/-- A handler tests `*signum` only while no handler stands between its test and its
assignment. -/
def SignalState.testsAlone (s : SignalState) : SignalAction → Bool
  | .handler i =>
      match s.handlers.drop i with
      | [] => true
      | h :: _ => h.pc != .test || s.handlers.all fun x => x.pc != .assign
  | _ => true

/-- The process with handlers that test alone. -/
def loneTests (nbAddonsThreads : Nat) : Machine SignalState SignalAction :=
  (signals nbAddonsThreads).restrict fun s a => s.testsAlone a = true

/-! ## The handler that found zero -/

/-- The handler is behind a test that found zero. -/
def Handler.working (h : Handler) : Bool :=
  match h.pc with
  | .assign => true
  | .cancel _ => true
  | _ => false

/-- The handlers behind a test that found zero. -/
def SignalState.working (s : SignalState) : List Handler :=
  s.handlers.filter Handler.working

section Filter

variable {α : Type} {p : α → Bool} {newer older : List α} {h h' x : α}

/-- An element that is filtered out can be replaced by another one. -/
theorem filter_replace (hh : p h = false) (hh' : p h' = false) :
    (newer ++ h' :: older).filter p = (newer ++ h :: older).filter p := by
  simp [hh, hh']

/-- An element that is filtered out can be removed. -/
theorem filter_remove (hh : p h = false) :
    (newer ++ older).filter p = (newer ++ h :: older).filter p := by
  simp [hh]

/-- Where everything around it is filtered out, an element that is kept is the only one. -/
theorem filter_alone (hnewer : newer.filter p = []) (holder : older.filter p = [])
    (hh : p h = true) : (newer ++ h :: older).filter p = [h] := by
  rw [List.filter_append, List.filter_cons_of_pos hh, hnewer, holder, List.nil_append]

/-- Where everything is filtered out, an element that is kept is the only one. -/
theorem filter_start (hnone : (newer ++ h :: older).filter p = []) (hh' : p h' = true) :
    (newer ++ h' :: older).filter p = [h'] := by
  rw [List.filter_eq_nil_iff] at hnone
  apply filter_alone _ _ hh'
  · rw [List.filter_eq_nil_iff]
    intro a ha
    exact hnone a (List.mem_append_left _ ha)
  · rw [List.filter_eq_nil_iff]
    intro a ha
    exact hnone a (List.mem_append_right _ (List.mem_cons_of_mem _ ha))

/-- The only element that is kept is the one that is known to be. -/
theorem filter_only (hone : (newer ++ h :: older).filter p = [x]) (hh : p h = true) :
    x = h ∧ newer.filter p = [] ∧ older.filter p = [] := by
  rw [List.filter_append, List.filter_cons_of_pos hh] at hone
  cases hnewer : newer.filter p with
  | nil =>
      rw [hnewer, List.nil_append, List.cons.injEq] at hone
      exact ⟨hone.1.symm, rfl, hone.2⟩
  | cons a as =>
      rw [hnewer] at hone
      simp at hone

end Filter

/-! ## The invariant -/

/-- How far the shutdown has got. -/
inductive Phase (nbAddonsThreads : Nat) (s : SignalState) : Prop where
  | waiting (hvalue : s.value = 0) (hassigned : s.assigned = []) (hcancels : s.cancels = [])
      (hworking : s.working = [])
  | chosen {h : Handler} (hvalue : s.value = 0) (hassigned : s.assigned = [])
      (hcancels : s.cancels = []) (hworking : s.working = [h]) (hpc : h.pc = .assign)
  | cancelling {h : Handler} {i : Nat} (hvalue : s.value ≠ 0) (hassigned : s.assigned = [s.value])
      (hcancels : s.cancels = List.range i) (hle : i ≤ nbAddonsThreads)
      (hworking : s.working = [h]) (hpc : h.pc = .cancel i)
  | done (hvalue : s.value ≠ 0) (hassigned : s.assigned = [s.value])
      (hcancels : s.cancels = List.range nbAddonsThreads) (hworking : s.working = [])

/-- The phase depends on four parts of the state. -/
theorem Phase.of_eq {nbAddonsThreads : Nat} {s s' : SignalState} (h : Phase nbAddonsThreads s)
    (hvalue : s'.value = s.value) (hassigned : s'.assigned = s.assigned)
    (hcancels : s'.cancels = s.cancels) (hworking : s'.working = s.working) :
    Phase nbAddonsThreads s' := by
  cases h with
  | waiting hv ha hc hw =>
      exact .waiting (hvalue.trans hv) (hassigned.trans ha) (hcancels.trans hc) (hworking.trans hw)
  | chosen hv ha hc hw hpc =>
      exact .chosen (hvalue.trans hv) (hassigned.trans ha) (hcancels.trans hc)
        (hworking.trans hw) hpc
  | cancelling hv ha hc hle hw hpc =>
      rw [← hvalue] at hv ha
      exact .cancelling hv (hassigned.trans ha) (hcancels.trans hc) hle (hworking.trans hw) hpc
  | done hv ha hc hw =>
      rw [← hvalue] at hv ha
      exact .done hv (hassigned.trans ha) (hcancels.trans hc) (hworking.trans hw)

/-- What `main` has read is the signal in `*signum`. -/
def MainAgrees (s : SignalState) : Prop :=
  match s.main with
  | .install _ => False
  | .assignThreadIdentifiers => False
  | .waitForShutdown => True
  | .store returned => returned = s.value ∧ s.value ≠ 0
  | .testSignum => s.value ≠ 0
  | .decided restarts => restarts = (s.value == SIGHUP) ∧ s.value ≠ 0

/-- A step that leaves `main` alone and keeps a signal in `*signum` keeps what `main` has
read. -/
theorem MainAgrees.of_eq {s s' : SignalState} (h : MainAgrees s) (hmain : s'.main = s.main)
    (hvalue : s.value ≠ 0 → s'.value = s.value) : MainAgrees s' := by
  unfold MainAgrees at h ⊢
  rw [hmain]
  cases hpc : s.main with
  | install i => simp [hpc] at h
  | assignThreadIdentifiers => simp [hpc] at h
  | waitForShutdown => trivial
  | store returned =>
      simp only [hpc] at h
      simp only [hvalue h.2]
      exact h
  | testSignum =>
      simp only [hpc] at h
      simp only [hvalue h]
      exact h
  | decided restarts =>
      simp only [hpc] at h
      simp only [hvalue h.2]
      exact h

/-- The invariant of runs whose handlers test alone. -/
structure FirstWins (nbAddonsThreads : Nat) (s : SignalState) : Prop where
  phase : Phase nbAddonsThreads s
  main : MainAgrees s
  installed : 0 ∉ s.installed
  handlers : ∀ h ∈ s.handlers, h.signum ≠ 0

/-- Nothing has happened when `signalsHandler` returns. -/
theorem firstWins_completed (nbAddonsThreads : Nat) :
    FirstWins nbAddonsThreads SignalState.completed where
  phase := .waiting rfl rfl rfl rfl
  main := trivial
  installed := by decide
  handlers h hmem := by cases hmem

/-- A step keeps the invariant, and a signal in `*signum`. -/
def Keeps (nbAddonsThreads : Nat) (s s' : SignalState) : Prop :=
  FirstWins nbAddonsThreads s' ∧ (s.value ≠ 0 → s'.value = s.value)

/-- `main` stores what is there already. -/
theorem FirstWins.mainStep {nbAddonsThreads : Nat} {s s' : SignalState}
    (hs : FirstWins nbAddonsThreads s) (hstep : MainStep s s') : Keeps nbAddonsThreads s s' := by
  have hmain := hs.main
  unfold MainAgrees at hmain
  cases hstep with
  | install hpc hlt =>
      rw [hpc] at hmain
      exact hmain.elim
  | assignSignum hpc hend =>
      rw [hpc] at hmain
      exact hmain.elim
  | assignThreadIdentifiers hpc =>
      rw [hpc] at hmain
      exact hmain.elim
  | join hpc hvalue =>
      exact ⟨⟨hs.phase.of_eq rfl rfl rfl rfl, ⟨rfl, hvalue⟩, hs.installed, hs.handlers⟩, fun _ => rfl⟩
  | store hpc =>
      rw [hpc] at hmain
      obtain ⟨rfl, hvalue⟩ := hmain
      exact ⟨⟨hs.phase.of_eq rfl rfl rfl rfl, hvalue, hs.installed, hs.handlers⟩, fun _ => rfl⟩
  | decide hpc =>
      rw [hpc] at hmain
      exact ⟨⟨hs.phase.of_eq rfl rfl rfl rfl, ⟨rfl, hmain⟩, hs.installed, hs.handlers⟩, fun _ => rfl⟩

/-- A handler behind a test that found zero is the only one, and stands where the phase says. -/
theorem Phase.of_working {nbAddonsThreads : Nat} {newer older : List Handler} {h : Handler}
    {s : SignalState} (hs : Phase nbAddonsThreads s) (hsplit : s.handlers = newer ++ h :: older)
    (hbusy : h.working = true) :
    newer.filter Handler.working = [] ∧ older.filter Handler.working = [] ∧
      ((h.pc = .assign ∧ s.value = 0 ∧ s.assigned = [] ∧ s.cancels = []) ∨
        ∃ i, h.pc = .cancel i ∧ s.value ≠ 0 ∧ s.assigned = [s.value] ∧
          s.cancels = List.range i ∧ i ≤ nbAddonsThreads) := by
  have hworking : s.working = (newer ++ h :: older).filter Handler.working := by
    rw [SignalState.working, hsplit]
  have hmem : h ∈ s.working := by
    rw [hworking, List.mem_filter]
    exact ⟨List.mem_append_cons_self, hbusy⟩
  cases hs with
  | waiting hv ha hc hw =>
      rw [hw] at hmem
      cases hmem
  | chosen hv ha hc hw hpc =>
      rw [hworking] at hw
      obtain ⟨rfl, hnewer, holder⟩ := filter_only hw hbusy
      exact ⟨hnewer, holder, Or.inl ⟨hpc, hv, ha, hc⟩⟩
  | @cancelling _ i hv ha hc hle hw hpc =>
      rw [hworking] at hw
      obtain ⟨rfl, hnewer, holder⟩ := filter_only hw hbusy
      exact ⟨hnewer, holder, Or.inr ⟨i, hpc, hv, ha, hc, hle⟩⟩
  | done hv ha hc hw =>
      rw [hw] at hmem
      cases hmem

/-- The phase behind a step of a handler. -/
theorem Phase.handlerStep {nbAddonsThreads : Nat} {newer older : List Handler} {h : Handler}
    {s s' : SignalState} (hs : Phase nbAddonsThreads s) (hsignum : h.signum ≠ 0)
    (hsplit : s.handlers = newer ++ h :: older)
    (halone : h.pc = .test → ∀ x ∈ s.handlers, x.pc ≠ .assign)
    (hstep : HandlerStep nbAddonsThreads newer h older s s') :
    Phase nbAddonsThreads s' ∧ (s.value ≠ 0 → s'.value = s.value) := by
  have hworking : s.working = (newer ++ h :: older).filter Handler.working := by
    rw [SignalState.working, hsplit]
  cases hstep with
  | abort hpc hpipe => exact ⟨hs.of_eq rfl rfl rfl rfl, fun _ => rfl⟩
  | log hpc hpipe =>
      have hidle : h.working = false := by rw [Handler.working, hpc]
      refine ⟨hs.of_eq rfl rfl rfl ?_, fun _ => rfl⟩
      rw [hworking]
      exact filter_replace hidle rfl
  | sawZero hpc hset hvalue =>
      refine ⟨?_, fun hne => absurd hvalue hne⟩
      cases hs with
      | waiting hv ha hc hw =>
          rw [hworking] at hw
          exact .chosen hv ha hc (filter_start hw rfl) rfl
      | @chosen chosen hv ha hc hw hassign =>
          have hmem : chosen ∈ s.working := by
            rw [hw]
            exact List.mem_cons_self ..
          exact absurd hassign (halone hpc chosen (List.mem_filter.mp hmem).1)
      | cancelling hv => exact absurd hvalue hv
      | done hv => exact absurd hvalue hv
  | sawSignal hpc hset hvalue =>
      have hidle : h.working = false := by rw [Handler.working, hpc]
      refine ⟨hs.of_eq rfl rfl rfl ?_, fun _ => rfl⟩
      rw [hworking]
      exact filter_remove hidle
  | assign hpc hset =>
      have hbusy : h.working = true := by rw [Handler.working, hpc]
      obtain ⟨hnewer, holder, ⟨_, hvalue, hassigned, hcancels⟩ | ⟨i, hcancel, _⟩⟩ :=
        hs.of_working hsplit hbusy
      · refine ⟨.cancelling (i := 0) (h := { h with pc := .cancel 0 }) hsignum ?_ hcancels
          (Nat.zero_le _) ?_ rfl, fun hne => absurd hvalue hne⟩
        · rw [hassigned]
          rfl
        · exact filter_alone hnewer holder rfl
      · cases hpc.symm.trans hcancel
  | @cancel i hpc hset hlt =>
      have hbusy : h.working = true := by rw [Handler.working, hpc]
      obtain ⟨hnewer, holder, ⟨hassign, _⟩ | ⟨j, hcancel, hvalue, hassigned, hcancels, _⟩⟩ :=
        hs.of_working hsplit hbusy
      · cases hpc.symm.trans hassign
      · cases hpc.symm.trans hcancel
        refine ⟨.cancelling (i := i + 1) (h := { h with pc := .cancel (i + 1) }) hvalue hassigned
          ?_ hlt ?_ rfl, fun _ => rfl⟩
        · rw [hcancels, List.range_succ]
        · exact filter_alone hnewer holder rfl
  | @finish i hpc hset hend =>
      have hbusy : h.working = true := by rw [Handler.working, hpc]
      obtain ⟨hnewer, holder, ⟨hassign, _⟩ | ⟨j, hcancel, hvalue, hassigned, hcancels, hle⟩⟩ :=
        hs.of_working hsplit hbusy
      · cases hpc.symm.trans hassign
      · cases hpc.symm.trans hcancel
        have hall : i = nbAddonsThreads := Nat.le_antisymm hle hend
        rw [hall] at hcancels
        refine ⟨.done hvalue hassigned hcancels ?_, fun _ => rfl⟩
        rw [SignalState.working, List.filter_append, hnewer, holder, List.nil_append]

/-- A step keeps the invariant when handlers test alone. -/
theorem FirstWins.step {nbAddonsThreads : Nat} {s s' : SignalState} {a : SignalAction}
    (hs : FirstWins nbAddonsThreads s) (halone : s.testsAlone a = true)
    (hstep : SignalStep nbAddonsThreads s a s') : Keeps nbAddonsThreads s s' := by
  cases hstep with
  | main _ hmain => exact hs.mainStep hmain
  | deliver hinstalled hunblocked =>
      refine ⟨⟨hs.phase.of_eq rfl rfl rfl rfl, hs.main, hs.installed, ?_⟩, fun _ => rfl⟩
      intro h hmem
      rcases List.mem_cons.mp hmem with rfl | holder
      · rintro rfl
        exact hs.installed hinstalled
      · exact hs.handlers h holder
  | @handler newer older h _ hsplit hlast hhandler =>
      have hmem : h ∈ s.handlers := by
        rw [hsplit]
        exact List.mem_append_cons_self
      have halone : h.pc = .test → ∀ x ∈ s.handlers, x.pc ≠ .assign := by
        intro hpc
        have hdrop : s.handlers.drop newer.length = h :: older := by
          rw [hsplit, List.drop_left]
        simpa [SignalState.testsAlone, hdrop, hpc] using halone
      obtain ⟨hphase, hvalue⟩ :=
        hs.phase.handlerStep (hs.handlers h hmem) hsplit halone hhandler
      obtain ⟨hmain, hinstalled, _, _⟩ := hhandler.frame
      refine ⟨⟨hphase, ?_, ?_, ?_⟩, hvalue⟩
      · exact hs.main.of_eq hmain hvalue
      · rw [hinstalled]
        exact hs.installed
      · intro x hx
        obtain ⟨y, hy, _, hsame⟩ := hhandler.handlers hsplit x hx
        rw [hsame]
        exact hs.handlers y hy

/-- In every run whose handlers test alone, from the state in which `signalsHandler` returns, the
invariant holds. -/
theorem firstWins_reachableFrom {nbAddonsThreads : Nat} {s : SignalState}
    (h : (loneTests nbAddonsThreads).ReachableFrom SignalState.completed s) :
    FirstWins nbAddonsThreads s := by
  apply h.invariant (firstWins_completed nbAddonsThreads)
  intro s a s' hs hstep
  obtain ⟨halone, hmove⟩ := Machine.restrict_step_eq_next.mp hstep
  exact (hs.step halone (signals_cases hmove)).1

/-- What is in `*signum` stays there for the rest of such a run. -/
theorem FirstWins.stays {nbAddonsThreads : Nat} {s t : SignalState}
    (hs : FirstWins nbAddonsThreads s) (hvalue : s.value ≠ 0)
    (h : (loneTests nbAddonsThreads).ReachableFrom s t) : t.value = s.value := by
  have hboth : FirstWins nbAddonsThreads t ∧ t.value = s.value := by
    apply h.invariant (P := fun t => FirstWins nbAddonsThreads t ∧ t.value = s.value) ⟨hs, rfl⟩
    rintro t a t' ⟨ht, hsame⟩ hstep
    obtain ⟨halone, hmove⟩ := Machine.restrict_step_eq_next.mp hstep
    obtain ⟨ht', hkept⟩ := ht.step halone (signals_cases hmove)
    refine ⟨ht', (hkept ?_).trans hsame⟩
    rw [hsame]
    exact hvalue
  exact hboth.2

/-- The calls of `pthread_cancel` so far are those for the first addon threads, in order. -/
theorem Phase.cancels_eq {nbAddonsThreads : Nat} {s : SignalState}
    (hs : Phase nbAddonsThreads s) : ∃ i ≤ nbAddonsThreads, s.cancels = List.range i := by
  cases hs with
  | waiting hv ha hc hw => exact ⟨0, Nat.zero_le _, hc⟩
  | chosen hv ha hc hw hpc => exact ⟨0, Nat.zero_le _, hc⟩
  | cancelling hv ha hc hle hw hpc => exact ⟨_, hle, hc⟩
  | done hv ha hc hw => exact ⟨_, le_rfl, hc⟩

/-- A signal in `*signum` is the only one that was ever assigned. -/
theorem Phase.assigned_eq {nbAddonsThreads : Nat} {s : SignalState}
    (hs : Phase nbAddonsThreads s) (hvalue : s.value ≠ 0) : s.assigned = [s.value] := by
  cases hs with
  | waiting hv => exact absurd hv hvalue
  | chosen hv => exact absurd hv hvalue
  | cancelling hv ha => exact ha
  | done hv ha => exact ha

/-- Once every handler has returned, every addon thread has been cancelled. -/
theorem Phase.all_cancelled {nbAddonsThreads : Nat} {s : SignalState}
    (hs : Phase nbAddonsThreads s) (hvalue : s.value ≠ 0) (hreturned : s.handlers = []) :
    s.cancels = List.range nbAddonsThreads := by
  have hnone : s.working = [] := by
    rw [SignalState.working, hreturned, List.filter_nil]
  cases hs with
  | waiting hv => exact absurd hv hvalue
  | chosen hv => exact absurd hv hvalue
  | cancelling hv ha hc hle hw hpc =>
      rw [hnone] at hw
      cases hw
  | done hv ha hc hw => exact hc

/-- From the state in which `signalsHandler` returns, in every run whose handlers test alone,
whatever signals are delivered and wherever they interrupt: the first signal stays in `*signum`
and decides about the restart, and every addon thread is cancelled once. -/
theorem first_signal_wins {nbAddonsThreads : Nat} {s : SignalState}
    (h : (loneTests nbAddonsThreads).ReachableFrom SignalState.completed s) :
    FirstSignalWins (loneTests nbAddonsThreads) nbAddonsThreads s := by
  have hs := firstWins_reachableFrom h
  obtain ⟨k, hk, hcancels⟩ := hs.phase.cancels_eq
  refine ⟨?_, ?_, ?_, ?_, ?_, ?_⟩
  · intro hvalue t ht
    exact hs.stays hvalue ht
  · intro hvalue
    rw [hs.phase.assigned_eq hvalue, List.head?_cons]
  · rw [hcancels]
    exact List.nodup_iff_count_le_one.mp List.nodup_range
  · intro i hi
    rw [hcancels, List.mem_range] at hi
    omega
  · intro hvalue hreturned i hi
    rw [hs.phase.all_cancelled hvalue hreturned]
    exact List.count_eq_one_of_mem List.nodup_range (List.mem_range.mpr hi)
  · intro restarts hdecided
    have hmain := hs.main
    simp only [MainAgrees, hdecided] at hmain
    obtain ⟨hrestarts, hvalue⟩ := hmain
    refine ⟨s.value, ?_, hrestarts⟩
    rw [hs.phase.assigned_eq hvalue, List.head?_cons]

/-- A `SIGTERM` whose handler is interrupted before its test by the handler of a `SIGHUP`: the
probe restarts, and both addon threads are cancelled once. -/
theorem first_signal_wins_nested :
    ∃ s, (loneTests 2).ReachableFrom SignalState.completed s ∧ s.main = .decided true ∧
      s.cancels = [0, 1] ∧ FirstSignalWins (loneTests 2) 2 s := by
  have hrun : (loneTests 2).EndsIn SignalState.completed
      [.deliver 0 SIGTERM, .handler 0, .deliver 0 SIGHUP, .handler 0, .handler 0, .handler 0,
        .handler 0, .handler 0, .handler 0, .handler 0, .main, .main, .main]
      (fun s => s.main = .decided true ∧ s.cancels = [0, 1]) := by
    decide
  obtain ⟨s, hs, hmain, hcancels⟩ := Machine.exists_reachableFrom_of_endsIn hrun
  exact ⟨s, hs, hmain, hcancels, first_signal_wins hs⟩

/-- A `SIGTERM` whose handler is interrupted behind its test by the handler of a `SIGHUP`: the
`SIGHUP` is assigned first, the `SIGTERM` overwrites it, the addon thread is cancelled twice, and
`main` does not restart the probe. -/
theorem nested_signal_overwrites :
    ∃ s t, (signals 1).ReachableFrom SignalState.completed s ∧ s.value = SIGHUP ∧
      (signals 1).ReachableFrom s t ∧ t.value = SIGTERM ∧ t.handlers = [] ∧
      t.cancels = [0, 0] ∧ t.main = .decided false ∧
      ¬ FirstSignalWins (signals 1) 1 s ∧ ¬ FirstSignalWins (signals 1) 1 t := by
  have hrun : (signals 1).EndsIn SignalState.completed
      [.deliver 0 SIGTERM, .handler 0, .handler 0, .deliver 0 SIGHUP, .handler 0, .handler 0,
        .handler 0, .handler 0, .handler 0]
      (fun s => s.value = SIGHUP ∧ (signals 1).EndsIn s
        [.handler 0, .handler 0, .handler 0, .main, .main, .main]
        (fun t => t.value = SIGTERM ∧ t.handlers = [] ∧ t.cancels = [0, 0] ∧
          t.main = .decided false)) := by
    decide
  obtain ⟨s, hs, hfirst, hrest⟩ := Machine.exists_reachableFrom_of_endsIn hrun
  obtain ⟨t, ht, hlast, hreturned, hcancels, hmain⟩ :=
    Machine.exists_reachableFrom_of_endsIn hrest
  refine ⟨s, t, hs, hfirst, ht, hlast, hreturned, hcancels, hmain, ?_, ?_⟩
  · intro hwins
    have hvalue : s.value ≠ 0 := by
      rw [hfirst]
      decide
    have hstays := hwins.stays hvalue t ht
    rw [hlast, hfirst] at hstays
    revert hstays
    decide
  · intro hwins
    have honce := hwins.atMostOnce 0
    rw [hcancels] at honce
    revert honce
    decide

end AlertProbe
