import AlertProbe.Pipeline.Fifo

/-!
# Shutdown

Behind a signal the format thread and the sender thread leave their loops.  The
inner loops do not test `signum`, and the format thread feeds the sender thread,
so the bound on the steps that remain weighs both queues and both program points.
`popCollectQueue` waits for the SD-Element mutex while it holds the collect mutex,
and no thread takes them in the other order.

Main results:

- Theorem `waitsFor_acyclic`: there is no cycle of waiting threads.
- Theorem `exited_of_blocked`: two threads that cannot move have both exited.
- Theorem `remaining_lt`: every step of the two threads brings them closer to exit.
- Theorem `shutdown_terminates`: all of it together.
-/

namespace AlertProbe

open Foundations

/-! ## Waiting -/

/-- The two mutexes. -/
inductive Mutex where
  | collectQueue
  | sdElementQueue
deriving DecidableEq, Repr

/-- The mutex that an addon is about to take. -/
def AddonPC.wants : AddonPC → Option Mutex
  | .idle => some .collectQueue
  | _ => none

/-- The mutex that the format thread is about to take. -/
def FormatPC.wants : FormatPC → Option Mutex
  | .lock => some .collectQueue
  | .push .lock _ => some .sdElementQueue
  | _ => none

/-- The mutex that the sender thread is about to take. -/
def SenderPC.wants : SenderPC → Option Mutex
  | .push .lock _ _ | .lock => some .sdElementQueue
  | _ => none

/-- The mutex that a thread is about to take. -/
def State.wants (s : State) : Thread → Option Mutex
  | .addon i => (s.addons i).wants
  | .format => s.format.wants
  | .sender => s.sender.wants

/-- The owner of a mutex. -/
def State.owner (s : State) : Mutex → Option Thread
  | .collectQueue => s.collectQueue.mutex
  | .sdElementQueue => s.sdElementQueue.mutex

/-- Thread `t` is about to take a mutex that `u` owns. -/
def State.WaitsFor (s : State) (t u : Thread) : Prop :=
  ∃ m, s.wants t = some m ∧ s.owner m = some u

/-- Owners of the SD-Element mutex come before owners of the collect mutex, and these before
all other threads. -/
def State.rank (s : State) (t : Thread) : Nat :=
  if s.sdElementQueue.mutex = some t then 0
  else if s.collectQueue.mutex = some t then 1
  else 2

/-- An addon takes the collect mutex only. -/
theorem AddonPC.of_wants {pc : AddonPC} {m : Mutex} (h : pc.wants = some m) :
    m = .collectQueue ∧ pc = .idle := by
  cases pc with
  | idle =>
      cases h
      exact ⟨rfl, rfl⟩
  | _ => cases h

/-- The format thread takes the SD-Element mutex last. -/
theorem FormatPC.of_wants {pc : FormatPC} {m : Mutex} (h : pc.wants = some m) :
    pc.holdsSD = false ∧ (m = .collectQueue → pc.holdsCollect = false) := by
  cases pc with
  | push pc new =>
      cases pc with
      | lock =>
          cases h
          exact ⟨rfl, fun hm => by cases hm⟩
      | _ => cases h
  | lock => exact ⟨rfl, fun _ => rfl⟩
  | _ => cases h

/-- The sender thread takes the SD-Element mutex only. -/
theorem SenderPC.of_wants {pc : SenderPC} {m : Mutex} (h : pc.wants = some m) :
    m = .sdElementQueue ∧ pc.holdsSD = false := by
  cases pc with
  | push pc new t =>
      cases pc with
      | lock =>
          cases h
          exact ⟨rfl, rfl⟩
      | _ => cases h
  | lock =>
      cases h
      exact ⟨rfl, rfl⟩
  | _ => cases h

/-- A thread about to take a mutex does not own the SD-Element mutex, and the collect mutex
only if it is not that one which it is about to take. -/
theorem LockInv.not_owner_of_wants {s : State} (h : LockInv s) {t : Thread} {m : Mutex}
    (hwants : s.wants t = some m) :
    s.sdElementQueue.mutex ≠ some t ∧
      (m = .collectQueue → s.collectQueue.mutex ≠ some t) := by
  cases t with
  | addon i => exact ⟨h.sd_addon i, fun _ => h.collect_idle i (AddonPC.of_wants hwants).2⟩
  | format =>
      rcases FormatPC.of_wants hwants with ⟨hsd, hcollect⟩
      constructor
      · rw [Ne, h.sd_format, hsd]
        exact Bool.false_ne_true
      · intro hm
        rw [Ne, h.collect_format, hcollect hm]
        exact Bool.false_ne_true
  | sender =>
      constructor
      · rw [Ne, h.sd_sender, (SenderPC.of_wants hwants).2]
        exact Bool.false_ne_true
      · intro _
        exact h.collect_sender

/-- A thread waits only for threads of a lower rank. -/
theorem LockInv.rank_lt {s : State} (h : LockInv s) {t u : Thread} (hwaits : s.WaitsFor t u) :
    s.rank u < s.rank t := by
  rcases hwaits with ⟨m, hwants, howner⟩
  rcases h.not_owner_of_wants hwants with ⟨hsd, hcollect⟩
  cases m with
  | collectQueue =>
      change s.collectQueue.mutex = some u at howner
      have ht : s.rank t = 2 := by
        rw [State.rank, if_neg hsd, if_neg (hcollect rfl)]
      have hu : s.rank u ≤ 1 := by
        rw [State.rank, if_pos howner]
        split <;> omega
      omega
  | sdElementQueue =>
      change s.sdElementQueue.mutex = some u at howner
      have ht : 1 ≤ s.rank t := by
        rw [State.rank, if_neg hsd]
        split <;> omega
      have hu : s.rank u = 0 := by
        rw [State.rank, if_pos howner]
      omega

/-- No thread waits for itself, directly or through others. -/
theorem waitsFor_acyclic {p : Params} {s : State} (h : (probe p).Reachable s) (t : Thread) :
    ¬ Relation.TransGen s.WaitsFor t t := by
  intro hcycle
  have hrank := rank_lt_of_transGen s.rank
    (fun _ _ hwaits => (lockInv_of_reachable h).rank_lt hwaits) hcycle
  exact lt_irrefl _ hrank

/-! ## Progress -/

/-- A format thread that cannot move has exited or waits for another thread. -/
theorem waitsFor_of_formatStep_blocked {p : Params} {s : State}
    (h : formatStep p s = .blocked) : s.format = .exited ∨ ∃ u, s.WaitsFor .format u := by
  cases hpc : s.format with
  | exited => exact Or.inl rfl
  | lock =>
      right
      simp only [formatStep, hpc] at h
      split at h
      · rename_i hlock
        rcases LockedQueue.exists_owner_of_lock hlock with ⟨u, howner⟩
        exact ⟨u, .collectQueue, by simp [State.wants, hpc, FormatPC.wants], howner⟩
      · cases h
  | pop =>
      simp only [formatStep, hpc] at h
      split at h
      · cases h
      · split at h
        · cases h
        · split at h <;> cases h
  | push pc new =>
      cases pc with
      | lock =>
          right
          simp only [formatStep, hpc] at h
          split at h
          · rename_i hlock
            rcases LockedQueue.exists_owner_of_lock hlock with ⟨u, howner⟩
            exact ⟨u, .sdElementQueue, by simp [State.wants, hpc, FormatPC.wants], howner⟩
          · cases h
      | _ =>
          simp only [formatStep, hpc] at h
          cases h
  | testSignum | testFirst =>
      simp only [formatStep, hpc] at h
      split at h <;> cases h
  | _ =>
      simp only [formatStep, hpc] at h
      cases h

/-- A sender thread that cannot move has exited or waits for another thread. -/
theorem waitsFor_of_senderStep_blocked {p : Params} {env : SendEnv} {s : State}
    (h : senderStep p env s = .blocked) : s.sender = .exited ∨ ∃ u, s.WaitsFor .sender u := by
  cases hpc : s.sender with
  | exited => exact Or.inl rfl
  | lock =>
      right
      simp only [senderStep, hpc] at h
      split at h
      · rename_i hlock
        rcases LockedQueue.exists_owner_of_lock hlock with ⟨u, howner⟩
        exact ⟨u, .sdElementQueue, by simp [State.wants, hpc, SenderPC.wants], howner⟩
      · cases h
  | push pc new t =>
      cases pc with
      | lock =>
          right
          simp only [senderStep, hpc] at h
          split at h
          · rename_i hlock
            rcases LockedQueue.exists_owner_of_lock hlock with ⟨u, howner⟩
            exact ⟨u, .sdElementQueue, by simp [State.wants, hpc, SenderPC.wants], howner⟩
          · cases h
      | _ =>
          simp only [senderStep, hpc] at h
          cases h
  | testQueue t =>
      simp only [senderStep, hpc] at h
      split at h
      · split at h
        · split at h <;> cases h
        · cases h
      · cases h
  | testSignum | testFirst | pop | sendMessage e =>
      simp only [senderStep, hpc] at h
      split at h <;> cases h
  | _ =>
      simp only [senderStep, hpc] at h
      cases h

/-- The moves of the format thread and the sender thread. -/
def isThreadAction : Action → Bool
  | .format | .sender _ => true
  | _ => false

/-- The probe without its addons and signals. -/
def threads (p : Params) : Machine State Action :=
  (probe p).restrict fun _ a => isThreadAction a = true

/-- While no addon owns the collect mutex, whoever is waited for is one of the two threads
and still running. -/
theorem LockInv.owner_running {s : State} (h : LockInv s)
    (haddons : ∀ i, s.collectQueue.mutex ≠ some (.addon i)) {t u : Thread}
    (hwaits : s.WaitsFor t u) :
    (u = .format ∧ s.format ≠ .exited) ∨ (u = .sender ∧ s.sender ≠ .exited) := by
  have hformat : s.format.holdsCollect = true ∨ s.format.holdsSD = true →
      s.format ≠ .exited := by
    intro hholds hexited
    rw [hexited] at hholds
    rcases hholds with hholds | hholds <;> cases hholds
  have hsender : s.sender.holdsSD = true → s.sender ≠ .exited := by
    intro hholds hexited
    rw [hexited] at hholds
    cases hholds
  rcases hwaits with ⟨m, _, howner⟩
  cases m with
  | collectQueue =>
      change s.collectQueue.mutex = some u at howner
      cases u with
      | addon i => exact absurd howner (haddons i)
      | format => exact Or.inl ⟨rfl, hformat (Or.inl (h.collect_format.mp howner))⟩
      | sender => exact absurd howner h.collect_sender
  | sdElementQueue =>
      change s.sdElementQueue.mutex = some u at howner
      cases u with
      | addon i => exact absurd howner (h.sd_addon i)
      | format => exact Or.inl ⟨rfl, hformat (Or.inr (h.sd_format.mp howner))⟩
      | sender => exact Or.inr ⟨rfl, hsender (h.sd_sender.mp howner)⟩

/-- Two threads that cannot move, while no addon owns the collect mutex, have both exited. -/
theorem exited_of_blocked {p : Params} {s : State} (h : (probe p).Reachable s)
    (haddons : ∀ i, s.collectQueue.mutex ≠ some (.addon i))
    (hblocked : ∀ a, ¬ (threads p).Enabled s a) :
    s.format = .exited ∧ s.sender = .exited := by
  have hlock := lockInv_of_reachable h
  have hformat := waitsFor_of_formatStep_blocked (not_not.mp (hblocked .format))
  have hsender := waitsFor_of_senderStep_blocked
    (not_not.mp (hblocked (.sender (exampleEnv 0))))
  have hacyclic := waitsFor_acyclic h
  -- whoever the format thread waits for would be the sender thread, which waits for it
  have hnoFormat : ¬ ∃ u, s.WaitsFor .format u := by
    intro hex
    rcases hex with ⟨u, hwaits⟩
    rcases hlock.owner_running haddons hwaits with ⟨rfl, _⟩ | ⟨rfl, hrunning⟩
    · exact hacyclic _ (.single hwaits)
    · rcases hsender.resolve_left hrunning with ⟨v, hback⟩
      rcases hlock.owner_running haddons hback with ⟨rfl, _⟩ | ⟨rfl, _⟩
      · exact hacyclic _ (.tail (.single hwaits) hback)
      · exact hacyclic _ (.single hback)
  have hformatExited := hformat.resolve_right hnoFormat
  refine ⟨hformatExited, ?_⟩
  rcases hsender with hexited | ⟨u, hwaits⟩
  · exact hexited
  · rcases hlock.owner_running haddons hwaits with ⟨_, hrunning⟩ | ⟨rfl, _⟩
    · exact absurd hformatExited hrunning
    · exact absurd (.single hwaits) (hacyclic _)

/-! ## Termination -/

/-- Steps of the format thread that remain behind a signal, the readings that it has not
pushed aside.  Its round over a reading has eight steps, hence the jump at the append. -/
def FormatPC.remaining : FormatPC → Nat
  | .exited => 0
  | .testSignum => 1
  | .sleep => 2
  | .push .append _ => 6
  | .push .lock _ => 7
  | .pop => 8
  | .lock => 9
  | .testFirst => 10
  | .unlock => 11
  | .advance => 12
  | .push .unlock _ => 13

/-- Steps of the sender thread that remain behind a signal, the elements that it has not
handed over aside. -/
def SenderPC.remaining : SenderPC → Nat
  | .exited => 0
  | .testSignum => 1
  | .sleep => 2
  | .sendMessage _ => 7
  | .pop => 8
  | .lock => 9
  | .testFirst => 10
  | .reset => 11
  | .returned _ _ => 11
  | .unlock => 12
  | .push .unlock _ _ => 12
  | .advance => 13
  | .push .append _ _ => 20
  | .push .lock _ _ => 21
  | .testQueue _ => 22
  | .time => 23

/-- Steps that remain behind a signal.  A reading costs the format thread eight steps and the
sender thread seven. -/
def State.remaining (s : State) : Nat :=
  15 * s.unpushed.length + 7 * s.pendingSD.length + s.format.remaining + s.sender.remaining

/-- Behind a signal every step of the format thread brings the threads closer to exit. -/
theorem FormatStep.remaining_lt {p : Params} {s s' : State} (hsignum : s.signum ≠ 0)
    (hhead : HeadInv p s) (hs : FormatStep p s s') : s'.remaining < s.remaining := by
  have hformat := hhead.format
  cases hs with
  | «continue» hpc hzero => exact absurd hzero hsignum
  | popNothing hpc hfirst => exact absurd hfirst (hhead.collectQueue_ne_nil hpc)
  | pushAppend hpc =>
      rw [hpc] at hformat
      rcases hformat with ⟨e, hfirst, _⟩
      rcases List.head?_eq_some_iff.mp hfirst with ⟨rest, hcollect⟩
      -- the reading's 15 steps pay for 7 steps of the sender thread and 7 of this one
      simp only [State.remaining, State.unpushed, State.pendingSD, FormatPC.unpushed,
        FormatPC.remaining, hpc, hcollect, SenderPC.pending_append hhead.sender,
        LockedQueue.append_first, List.length_append, List.length_cons, List.length_nil,
        List.tail_cons]
      omega
  | _ =>
      simp_all [State.remaining, State.unpushed, State.pendingSD, FormatPC.unpushed,
        FormatPC.remaining]

/-- Behind a signal every step of the sender thread brings the threads closer to exit. -/
theorem SenderStep.remaining_lt {p : Params} {env : SendEnv} {s s' : State}
    (hsignum : s.signum ≠ 0) (hhead : HeadInv p s) (hs : SenderStep p env s s') :
    s'.remaining < s.remaining := by
  have hsender := hhead.sender
  cases hs with
  | «continue» hpc hzero => exact absurd hzero hsignum
  | popNothing hpc hfirst => exact absurd hfirst (hhead.sdElementQueue_ne_nil hpc)
  | pushAppend hpc =>
      -- the last heartbeat: its 7 steps are part of the weight of the program point
      simp only [State.remaining, State.unpushed, State.pendingSD, SenderPC.pending,
        SenderPC.remaining, hpc, LockedQueue.append_first, List.length_append,
        List.length_cons, List.length_nil]
      omega
  | sendMessage hpc hsend =>
      rw [hpc] at hsender
      rcases List.head?_eq_some_iff.mp hsender with ⟨rest, hfirst⟩
      simp only [State.remaining, State.unpushed, State.pendingSD, SenderPC.pending,
        SenderPC.remaining, hpc, hfirst, List.length_cons, List.tail_cons]
      omega
  | _ =>
      simp_all [State.remaining, State.unpushed, State.pendingSD, SenderPC.pending,
        SenderPC.remaining]

/-- A reachable state behind a signal in which no addon owns the collect mutex. -/
structure Stopping (p : Params) (s : State) : Prop where
  reachable : (probe p).Reachable s
  signum : s.signum ≠ 0
  addons : ∀ i, s.collectQueue.mutex ≠ some (.addon i)

/-- The steps of the two threads stay behind the signal and bring the threads closer to
exit. -/
theorem Stopping.step {p : Params} {s s' : State} {a : Action} (h : Stopping p s)
    (hstep : (threads p).step s a = .next s') :
    Stopping p s' ∧ s'.remaining < s.remaining := by
  rcases Machine.restrict_step_eq_next.mp hstep with ⟨hthread, hstep⟩
  have hreachable : (probe p).Reachable s' := h.reachable.trans (.single ⟨a, hstep⟩)
  have hhead := headInv_of_reachable h.reachable
  cases step_cases hstep with
  | format hs =>
      refine ⟨⟨hreachable, ?_, ?_⟩, hs.remaining_lt h.signum hhead⟩
      · cases hs <;> exact h.signum
      · cases hs with
        | lock => simp
        | unlock => simp
        | _ => exact h.addons
  | sender hs =>
      refine ⟨⟨hreachable, ?_, ?_⟩, hs.remaining_lt h.signum hhead⟩
      · cases hs <;> exact h.signum
      · cases hs <;> exact h.addons
  | _ => cases hthread

/-- Shutdown terminates without deadlock.  Threads never wait for each other in a cycle.
Behind a signal, and while no addon owns the collect mutex or moves, no interleaving of the
format thread and the sender thread has more than `remaining` steps, and a state in which
neither of them can move is one in which both have exited.  A step that is undefined (a buffer
that overflows) counts as a possible step: it is no wait. -/
theorem shutdown_terminates {p : Params} {s : State} (h : (probe p).Reachable s) :
    (∀ t, ¬ Relation.TransGen s.WaitsFor t t) ∧
    (s.signum ≠ 0 → (∀ i, s.collectQueue.mutex ≠ some (.addon i)) →
      (∀ actions t, (threads p).run s actions = .next t → actions.length ≤ s.remaining) ∧
      (∀ t, (threads p).ReachableFrom s t → (∀ a, ¬ (threads p).Enabled t a) →
        t.format = .exited ∧ t.sender = .exited)) := by
  refine ⟨waitsFor_acyclic h, ?_⟩
  intro hsignum haddons
  have hstopping : Stopping p s := ⟨h, hsignum, haddons⟩
  constructor
  · intro actions t hrun
    exact Machine.run_length_le (fun _ _ _ hs hstep => hs.step hstep) hstopping hrun
  · intro t ht hblocked
    have hend : Stopping p t :=
      ht.invariant hstopping (fun _ _ _ hs hstep => (hs.step hstep).1)
    exact exited_of_blocked hend.reachable hend.addons hblocked

/-- One reading is queued when a signal arrives while both threads are in their inner loops. -/
theorem shutdown_terminates_run :
    ∃ s : State, s.signum = 15 ∧ s.unpushed.length = 1 ∧ s.remaining = 41 ∧
      ∀ actions t, (threads exampleParams).run s actions = .next t → actions.length ≤ 41 := by
  have hrun : (probe exampleParams).EndsIn State.start
      (List.replicate 3 (Action.addon 0 exampleReading) ++ List.replicate 2 Action.format ++
        List.replicate 7 (Action.sender (exampleEnv 100)) ++ [Action.signal 15])
      (fun s => s.signum = 15 ∧ s.collectQueue.mutex = none ∧
        s.unpushed.length = 1 ∧ s.remaining = 41) := by
    decide
  rcases Machine.exists_reachable_of_endsIn hrun with ⟨s, hs, hsignum, hfree, hunpushed, hremaining⟩
  have hterminates := (shutdown_terminates hs).2 (by rw [hsignum]; decide) (by simp [hfree])
  refine ⟨s, hsignum, hunpushed, hremaining, ?_⟩
  intro actions t hactions
  rw [← hremaining]
  exact hterminates.1 actions t hactions

end AlertProbe
