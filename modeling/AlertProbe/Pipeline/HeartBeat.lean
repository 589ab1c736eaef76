import AlertProbe.Pipeline.Fifo

/-!
# Heartbeats

`heartBeat` remembers in its static `tmpTime` when it last queued a heartbeat or
saw an element in the queue.  The timestamp never runs ahead of what the sender
thread hands over, so no silence goes unnoticed.  It can lag behind, because the
drain loop also hands over elements that no call of `heartBeat` has seen; such a
heartbeat interrupts traffic.

Time is the sequence of values that `time` returns.  The results assume that they
are positive and do not decrease.

Main results:

- Theorem `heartBeatInv_of_reachable`: what `tmpTime` says about the hand-overs.
- Theorem `heartBeat_complete`: no call passes a silence without a heartbeat.
- Theorem `heartBeat_sound_of_upToDate`: which heartbeats are not spurious.
- Theorem `heartBeat_after_traffic`: a run with a spurious one.
-/

namespace AlertProbe

open Foundations

/-! ## Time -/

/-- Where the step calls `time`, the reading is positive and not before the last one. -/
def clockAdvances (s : State) (a : Action) : Bool :=
  match s.sender, a with
  | .time, .sender env => decide (0 < env.now ∧ s.history.clock ≤ env.now)
  | .sendMessage _, .sender env => decide (0 < env.now ∧ s.history.clock ≤ env.now)
  | _, _ => true

/-- The probe in a world in which time advances. -/
def timedProbe (p : Params) : Machine State Action :=
  (probe p).restrict fun s a => clockAdvances s a = true

/-- What the sender thread knows about the time it has read and the heartbeat it has queued. -/
def SenderPC.TimeOk (p : Params) (s : State) : SenderPC → Prop
  | .testQueue t | .push .lock _ t | .push .append _ t => t = s.history.clock ∧ 0 < t
  | .push .unlock _ t =>
      t = s.history.clock ∧ 0 < t ∧ renderHeartBeat p.header t ∈ s.sdElementQueue.first
  | .returned t v =>
      s.tmpTime ≠ 0 ∧ t - s.tmpTime ≤ HEARTBEAT ∧
        (v = 1 → renderHeartBeat p.header t ∈ s.sdElementQueue.first)
  | _ => True

/-- What `tmpTime` says about the hand-overs.  A first call of `heartBeat` finds it 0, and
between the calls something is pending or was handed over since the time it records. -/
structure HeartBeatInv (p : Params) (s : State) : Prop where
  time : s.sender.TimeOk p s
  recorded : s.tmpTime ≤ s.history.clock
  activity : s.tmpTime = 0 ∨ s.pendingSD ≠ [] ∨
    ∃ handed ∈ s.history.handed, s.tmpTime ≤ handed.env.now
  first : s.history.heartBeatCalls = 0 →
    s.tmpTime = 0 ∨ ∃ t, s.sender = .returned t 1
  later : s.history.heartBeatCalls ≠ 0 → s.tmpTime ≠ 0

theorem HeartBeatInv.start (p : Params) : HeartBeatInv p State.start where
  time := trivial
  recorded := le_refl _
  activity := Or.inl rfl
  first _ := Or.inl rfl
  later h := absurd rfl h

/-- A step that only appends to the SD-Element queue keeps what is known about time. -/
theorem SenderPC.TimeOk.append {p : Params} {s s' : State} {pc : SenderPC}
    (h : pc.TimeOk p s) (hclock : s'.history.clock = s.history.clock)
    (htmp : s'.tmpTime = s.tmpTime)
    (hqueue : ∀ e ∈ s.sdElementQueue.first, e ∈ s'.sdElementQueue.first) :
    pc.TimeOk p s' := by
  cases pc with
  | push pc new t =>
      cases pc with
      | unlock =>
          rcases h with ⟨ht, hpos, hmem⟩
          exact ⟨by rw [hclock]; exact ht, hpos, hqueue _ hmem⟩
      | _ =>
          rcases h with ⟨ht, hpos⟩
          exact ⟨by rw [hclock]; exact ht, hpos⟩
  | testQueue t =>
      rcases h with ⟨ht, hpos⟩
      exact ⟨by rw [hclock]; exact ht, hpos⟩
  | returned t v =>
      rcases h with ⟨hne, hrecent, hmem⟩
      refine ⟨by rw [htmp]; exact hne, by rw [htmp]; exact hrecent, ?_⟩
      intro hv
      exact hqueue _ (hmem hv)
  | _ => trivial

/-- The steps of the format thread keep what `tmpTime` says. -/
theorem HeartBeatInv.formatStep {p : Params} {s s' : State} (h : HeartBeatInv p s)
    (hhead : HeadInv p s) (hs : FormatStep p s s') : HeartBeatInv p s' := by
  cases hs with
  | pushAppend hpc =>
      refine { h with time := h.time.append rfl rfl ?_, activity := ?_ }
      · intro e he
        exact List.mem_append_left _ he
      · rcases h.activity with hzero | hpending | hsince
        · exact Or.inl hzero
        · right; left
          simp only [State.pendingSD, LockedQueue.append_first,
            SenderPC.pending_append hhead.sender]
          exact List.append_ne_nil_of_left_ne_nil hpending _
        · exact Or.inr (Or.inr hsince)
  | _ => exact { h with time := h.time.append rfl rfl (fun _ he => he) }

/-- Before the first call of `heartBeat` has set it, `tmpTime` is 0. -/
theorem HeartBeatInv.tmpTime_eq_zero {p : Params} {s : State} (h : HeartBeatInv p s)
    (hcalls : s.history.heartBeatCalls = 0) (hpc : ∀ t, s.sender ≠ .returned t 1) :
    s.tmpTime = 0 := by
  rcases h.first hcalls with hzero | ⟨t, hreturned⟩
  · exact hzero
  · exact absurd hreturned (hpc t)

/-- The steps of the sender thread keep what `tmpTime` says. -/
theorem HeartBeatInv.senderStep {p : Params} {env : SendEnv} {s s' : State}
    (h : HeartBeatInv p s) (hhead : HeadInv p s)
    (hclock : clockAdvances s (.sender env) = true) (hs : SenderStep p env s s') :
    HeartBeatInv p s' := by
  have htime := h.time
  have hsender := hhead.sender
  cases hs with
  | time hpc =>
      simp only [clockAdvances, hpc, decide_eq_true_eq] at hclock
      exact { h with
        time := ⟨rfl, hclock.1⟩
        recorded := le_trans h.recorded hclock.2
        activity := by simpa [State.pendingSD, SenderPC.pending, hpc] using h.activity
        first := fun hcalls => Or.inl (h.tmpTime_eq_zero hcalls (by simp [hpc])) }
  | due hpc hidle hdue =>
      rw [hpc] at htime
      exact { h with
        time := htime
        activity := by simpa [State.pendingSD, SenderPC.pending, hpc] using h.activity
        first := fun hcalls => Or.inl (h.tmpTime_eq_zero hcalls (by simp [hpc])) }
  | notDue hpc hempty hnotFirst hrecent =>
      refine { h with
        time := ⟨hnotFirst, hrecent, fun hone => absurd hone (by decide)⟩
        activity := by simpa [State.pendingSD, SenderPC.pending, hpc] using h.activity
        first := ?_ }
      intro hcalls
      exact absurd (h.tmpTime_eq_zero hcalls (by simp [hpc])) hnotFirst
  | @busy t hpc hbusy hnotFirst =>
      rw [hpc] at htime
      rcases htime with ⟨ht, hpos⟩
      have hnow : t - t ≤ HEARTBEAT := by simp [HEARTBEAT]
      refine { h with
        time := ⟨ne_of_gt hpos, hnow, fun hone => absurd hone (by decide)⟩
        recorded := le_of_eq ht
        activity := Or.inr (Or.inl hbusy)
        first := ?_
        later := fun _ => ne_of_gt hpos }
      intro hcalls
      exact absurd (h.tmpTime_eq_zero hcalls (by simp [hpc])) hnotFirst
  | pushLock hpc hfree =>
      rw [hpc] at htime
      exact { h with
        time := htime
        activity := by simpa [State.pendingSD, SenderPC.pending, hpc] using h.activity
        first := fun hcalls => Or.inl (h.tmpTime_eq_zero hcalls (by simp [hpc])) }
  | @pushAppend new t hpc =>
      rw [hpc] at htime hsender
      rcases htime with ⟨ht, hpos⟩
      refine { h with
        time := ⟨ht, hpos, ?_⟩
        activity := Or.inr (Or.inl ?_)
        first := fun hcalls => Or.inl (h.tmpTime_eq_zero hcalls (by simp [hpc])) }
      · change new = renderHeartBeat p.header t at hsender
        simp [hsender]
      · simp [State.pendingSD, SenderPC.pending]
  | @pushUnlock new t hpc =>
      rw [hpc] at htime hsender
      rcases htime with ⟨ht, hpos, hmem⟩
      have hnow : t - t ≤ HEARTBEAT := by simp [HEARTBEAT]
      exact { h with
        time := ⟨ne_of_gt hpos, hnow, fun _ => hmem⟩
        recorded := le_of_eq ht
        activity := Or.inr (Or.inl hsender)
        first := fun _ => Or.inr ⟨t, rfl⟩
        later := fun _ => ne_of_gt hpos }
  | proceed hpc =>
      rw [hpc] at htime
      exact { h with
        time := trivial
        activity := by simpa [State.pendingSD, SenderPC.pending, hpc] using h.activity
        first := fun hcalls => absurd hcalls (Nat.succ_ne_zero _)
        later := fun _ => htime.1 }
  | sawElement hpc hfirst =>
      exact { h with
        time := trivial
        activity := Or.inr (Or.inl hfirst)
        first := fun hcalls => Or.inl (h.tmpTime_eq_zero hcalls (by simp [hpc])) }
  | pop hpc hfirst =>
      have hpending : s.sdElementQueue.first ≠ [] := by simp [hfirst]
      exact { h with
        time := trivial
        activity := Or.inr (Or.inl hpending)
        first := fun hcalls => Or.inl (h.tmpTime_eq_zero hcalls (by simp [hpc])) }
  | sendMessage hpc hsend =>
      simp only [clockAdvances, hpc, decide_eq_true_eq] at hclock
      -- what was pending is handed over now, and `tmpTime` is not in the future
      have hnow : s.tmpTime ≤ env.now := le_trans h.recorded hclock.2
      exact { h with
        time := trivial
        recorded := hnow
        activity := Or.inr (Or.inr ⟨_, List.mem_append_right _ (List.mem_singleton_self _), hnow⟩)
        first := fun hcalls => Or.inl (h.tmpTime_eq_zero hcalls (by simp [hpc])) }
  | _ =>
      exact { h with
        time := trivial
        activity := by simpa [State.pendingSD, SenderPC.pending, *] using h.activity
        first := fun hcalls => Or.inl (h.tmpTime_eq_zero hcalls (by simp [*])) }

/-- Every step of the probe keeps what `tmpTime` says. -/
theorem HeartBeatInv.step {p : Params} {s s' : State} {a : Action} (h : HeartBeatInv p s)
    (hhead : HeadInv p s) (hclock : clockAdvances s a = true) (hs : ProbeStep p s a s') :
    HeartBeatInv p s' := by
  cases hs with
  | addon hs => cases hs <;> exact { h with time := h.time.append rfl rfl (fun _ he => he) }
  | format hs => exact h.formatStep hhead hs
  | sender hs => exact h.senderStep hhead hclock hs
  | signalAgain => exact h
  | _ => exact { h with time := h.time.append rfl rfl (fun _ he => he) }

/-- What `tmpTime` says in every state that is reachable while time advances. -/
theorem heartBeatInv_of_reachable {p : Params} {s : State} (h : (timedProbe p).Reachable s) :
    HeartBeatInv p s := by
  apply h.invariant' (HeartBeatInv.start p)
  intro s a s' hs hinv hstep
  rcases Machine.restrict_step_eq_next.mp hstep with ⟨hclock, hstep⟩
  exact hinv.step (headInv_of_reachable hs.of_restrict) hclock (step_cases hstep)

/-! ## Completeness -/

/-- Behind a call of `heartBeat` something is queued or was handed over lately; a call that
returns 1 has queued its heartbeat, and so has the first call. -/
theorem HeartBeatInv.of_returned {p : Params} {s : State} (h : HeartBeatInv p s) {t : Time}
    {v : Int32} (hpc : s.sender = .returned t v) :
    (s.sdElementQueue.first ≠ [] ∨
      ∃ handed ∈ s.history.handed, t - HEARTBEAT ≤ handed.env.now) ∧
    (v = 1 → renderHeartBeat p.header t ∈ s.sdElementQueue.first) ∧
    (s.history.heartBeatCalls = 0 → v = 1) := by
  have htime := h.time
  rw [hpc] at htime
  rcases htime with ⟨hne, hrecent, hmem⟩
  refine ⟨?_, hmem, ?_⟩
  · rcases h.activity with hzero | hpending | ⟨handed, hhanded, hsince⟩
    · exact absurd hzero hne
    · left
      simpa [State.pendingSD, SenderPC.pending, hpc] using hpending
    · right
      have hwithin : t - HEARTBEAT ≤ s.tmpTime := sub_le_comm.mp hrecent
      exact ⟨handed, hhanded, le_trans hwithin hsince⟩
  · intro hcalls
    rcases h.first hcalls with hzero | ⟨t', hreturned⟩
    · exact absurd hzero hne
    · rw [hpc] at hreturned
      cases hreturned
      rfl

/-- A call of `heartBeat` that finds the queue empty after a silence goes on to queue a
heartbeat. -/
theorem HeartBeatInv.queues_after_silence {p : Params} {env : SendEnv} {s s' : State}
    (h : HeartBeatInv p s) {t : Time} (hpc : s.sender = .testQueue t)
    (hempty : s.sdElementQueue.first = [])
    (hsilent : ∀ handed ∈ s.history.handed, handed.env.now < t - HEARTBEAT)
    (hs : SenderStep p env s s') :
    s'.sender = .push .lock (renderHeartBeat p.header t) t := by
  cases hs with
  | due hpc' hidle hdue =>
      rw [hpc] at hpc'
      cases hpc'
      rfl
  | notDue hpc' hempty' hnotFirst hrecent =>
      rw [hpc] at hpc'
      cases hpc'
      rcases h.activity with hzero | hpending | ⟨handed, hhanded, hsince⟩
      · exact absurd hzero hnotFirst
      · simp [State.pendingSD, SenderPC.pending, hpc, hempty] at hpending
      · have hwithin : t - HEARTBEAT ≤ s.tmpTime := sub_le_comm.mp hrecent
        exact absurd (hsilent handed hhanded) (not_lt.mpr (le_trans hwithin hsince))
  | busy hpc' hbusy hnotFirst => exact absurd hempty hbusy
  | _ => simp_all

/-- No silence goes unnoticed.  When a call of `heartBeat` with the clock reading `t` returns,
the queue is nonempty or something was handed over at `t - HEARTBEAT` or later; a call that
returns 1 has queued a heartbeat of time `t`, and the first call returns 1.  A call that finds
the queue empty when everything was handed over before `t - HEARTBEAT` goes on to queue a
heartbeat. -/
theorem heartBeat_complete {p : Params} {s : State} (h : (timedProbe p).Reachable s) :
    (∀ t v, s.sender = .returned t v →
      (s.sdElementQueue.first ≠ [] ∨
        ∃ handed ∈ s.history.handed, t - HEARTBEAT ≤ handed.env.now) ∧
      (v = 1 → renderHeartBeat p.header t ∈ s.sdElementQueue.first) ∧
      (s.history.heartBeatCalls = 0 → v = 1)) ∧
    (∀ t, s.sender = .testQueue t → s.sdElementQueue.first = [] →
      (∀ handed ∈ s.history.handed, handed.env.now < t - HEARTBEAT) →
        ∀ env s', (probe p).step s (.sender env) = .next s' →
          s'.sender = .push .lock (renderHeartBeat p.header t) t) := by
  have hinv := heartBeatInv_of_reachable h
  constructor
  · intro t v hpc
    exact hinv.of_returned hpc
  · intro t hpc hempty hsilent env s' hstep
    exact hinv.queues_after_silence hpc hempty hsilent (senderStep_cases hstep)

/-- The first call of `heartBeat` returns 1; a later one finds the queue empty. -/
theorem heartBeat_complete_run :
    (∃ s : State, s.sender = .returned 100 1 ∧ s.history.heartBeatCalls = 0 ∧
      (s.sdElementQueue.first ≠ [] ∨
        ∃ handed ∈ s.history.handed, 100 - HEARTBEAT ≤ handed.env.now)) ∧
    ∃ s : State, s.sender = .returned 110 0 ∧ s.sdElementQueue.first = [] ∧
      (s.sdElementQueue.first ≠ [] ∨
        ∃ handed ∈ s.history.handed, 110 - HEARTBEAT ≤ handed.env.now) := by
  have hfirst : (timedProbe exampleParams).EndsIn State.start
      (List.replicate 6 (Action.sender (exampleEnv 100)))
      (fun s => s.sender = .returned 100 1 ∧ s.history.heartBeatCalls = 0) := by
    decide
  have hlater : (timedProbe exampleParams).EndsIn State.start
      (List.replicate 16 (Action.sender (exampleEnv 100)) ++
        List.replicate 3 (Action.sender (exampleEnv 110)))
      (fun s => s.sender = .returned 110 0 ∧ s.sdElementQueue.first = []) := by
    decide
  constructor
  · rcases Machine.exists_reachable_of_endsIn hfirst with ⟨s, hs, hpc, hcalls⟩
    exact ⟨s, hpc, hcalls, ((heartBeat_complete hs).1 100 1 hpc).1⟩
  · rcases Machine.exists_reachable_of_endsIn hlater with ⟨s, hs, hpc, hempty⟩
    exact ⟨s, hpc, hempty, ((heartBeat_complete hs).1 110 0 hpc).1⟩

/-! ## Soundness -/

/-- A heartbeat behind the first call of `heartBeat` that is being queued with the clock
reading `t` tells the truth: nothing was handed over within `HEARTBEAT` seconds of `t`. -/
def HeartBeatSound (s : State) : Prop :=
  ∀ pc new t, s.sender = .push pc new t → s.history.heartBeatCalls ≠ 0 →
    ∀ handed ∈ s.history.handed,
      ¬ (t - HEARTBEAT ≤ handed.env.now ∧ handed.env.now ≤ t)

/-- If the action is the test of a call of `heartBeat` that finds the queue empty and
`tmpTime` more than `HEARTBEAT` seconds old, then `tmpTime` is up to date: nothing was handed
over at a later time. -/
def upToDate (s : State) (a : Action) : Bool :=
  match s.sender, a with
  | .testQueue collectTime, .sender _ =>
      decide (s.sdElementQueue.first = [] → collectTime - s.tmpTime > HEARTBEAT →
        ∀ handed ∈ s.history.handed, handed.env.now ≤ s.tmpTime)
  | _, _ => true

/-- The steps of the sender thread queue no spurious heartbeat on an up-to-date `tmpTime`. -/
theorem HeartBeatSound.senderStep {p : Params} {env : SendEnv} {s s' : State}
    (h : HeartBeatSound s) (hinv : HeartBeatInv p s)
    (hupToDate : upToDate s (.sender env) = true) (hs : SenderStep p env s s') :
    HeartBeatSound s' := by
  intro pc new t hpush hcalls handed hhanded hwindow
  cases hs with
  | due hpc hidle hdue =>
      cases hpush
      -- behind the first call only the comparison with `tmpTime` leads here
      have hnotFirst : s.tmpTime ≠ 0 := hinv.later hcalls
      have hempty := hidle.resolve_right hnotFirst
      have hlong := hdue.resolve_left hnotFirst
      simp only [upToDate, hpc, decide_eq_true_eq] at hupToDate
      have hold : handed.env.now ≤ s.tmpTime := hupToDate hempty hlong handed hhanded
      have hbefore : s.tmpTime < t - HEARTBEAT := lt_sub_comm.mp hlong
      exact absurd hwindow.1 (not_le.mpr (lt_of_le_of_lt hold hbefore))
  | pushLock hpc hfree =>
      cases hpush
      exact h _ _ _ hpc hcalls handed hhanded hwindow
  | pushAppend hpc =>
      cases hpush
      exact h _ _ _ hpc hcalls handed hhanded hwindow
  | _ => cases hpush

/-- Every step of the probe queues no spurious heartbeat on an up-to-date `tmpTime`. -/
theorem HeartBeatSound.step {p : Params} {s s' : State} {a : Action} (h : HeartBeatSound s)
    (hinv : HeartBeatInv p s) (hupToDate : upToDate s a = true) (hs : ProbeStep p s a s') :
    HeartBeatSound s' := by
  cases hs with
  | addon hs => cases hs <;> exact h
  | format hs => cases hs <;> exact h
  | sender hs => exact h.senderStep hinv hupToDate hs
  | _ => exact h

/-- In every run in which a call of `heartBeat` that finds the queue empty and `tmpTime` more
than `HEARTBEAT` seconds old also finds it up to date, every heartbeat that is queued after
the first call tells the truth. -/
theorem heartBeat_sound_of_upToDate {p : Params} {s : State}
    (h : ((timedProbe p).restrict fun s a => upToDate s a = true).Reachable s) :
    HeartBeatSound s := by
  apply h.invariant'
  · intro pc new t hpush
    cases hpush
  · intro s a s' hs hsound hstep
    rcases Machine.restrict_step_eq_next.mp hstep with ⟨hupToDate, hstep⟩
    rcases Machine.restrict_step_eq_next.mp hstep with ⟨_, hstep⟩
    exact hsound.step (heartBeatInv_of_reachable hs.of_restrict) hupToDate (step_cases hstep)

/-- After eleven seconds without traffic the second heartbeat is queued. -/
theorem heartBeat_sound_of_upToDate_run :
    ∃ s : State, s.sender = .push .lock (renderHeartBeat exampleHeader 111) 111 ∧
      s.history.heartBeatCalls = 1 ∧ s.history.handed.length = 1 ∧ HeartBeatSound s := by
  have hrun : ((timedProbe exampleParams).restrict fun s a => upToDate s a = true).EndsIn
      State.start
      (List.replicate 16 (Action.sender (exampleEnv 100)) ++
        List.replicate 3 (Action.sender (exampleEnv 111)))
      (fun s => s.sender = .push .lock (renderHeartBeat exampleHeader 111) 111 ∧
        s.history.heartBeatCalls = 1 ∧ s.history.handed.length = 1) := by
    decide
  rcases Machine.exists_reachable_of_endsIn hrun with ⟨s, hs, hpc, hcalls, hhanded⟩
  exact ⟨s, hpc, hcalls, hhanded, heartBeat_sound_of_upToDate hs⟩

/-- The queue is empty when `heartBeat` looks at it at 105; then a reading arrives and is
handed over by the same round of the sender thread.  At 111 the probe queues a heartbeat. -/
theorem heartBeat_after_traffic :
    ∃ s : State, (timedProbe exampleParams).Reachable s ∧
      s.sender = .push .lock (renderHeartBeat exampleHeader 111) 111 ∧
      (∃ handed ∈ s.history.handed, handed.element.isData = true ∧ handed.env.now = 105) ∧
      ¬ HeartBeatSound s := by
  have hrun : (timedProbe exampleParams).EndsIn State.start
      (List.replicate 16 (Action.sender (exampleEnv 100)) ++
        List.replicate 4 (Action.sender (exampleEnv 105)) ++
        List.replicate 3 (Action.addon 0 exampleReading) ++ List.replicate 11 Action.format ++
        List.replicate 9 (Action.sender (exampleEnv 105)) ++
        List.replicate 3 (Action.sender (exampleEnv 111)))
      (fun s => s.sender = .push .lock (renderHeartBeat exampleHeader 111) 111 ∧
        s.history.heartBeatCalls ≠ 0 ∧
        ∃ handed ∈ s.history.handed,
          handed.element.isData = true ∧ handed.env.now = 105) := by
    decide
  rcases Machine.exists_reachable_of_endsIn hrun with
    ⟨s, hs, hpc, hcalls, handed, hhanded, hdata, hnow⟩
  refine ⟨s, hs, hpc, ⟨handed, hhanded, hdata, hnow⟩, ?_⟩
  intro hsound
  apply hsound _ _ _ hpc hcalls handed hhanded
  rw [hnow]
  exact ⟨by decide, by decide⟩

end AlertProbe
