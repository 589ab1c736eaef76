import AlertProbe.Pipeline.Fifo

/-!
# What shutdown leaves behind

Each thread tests `signum` once a round, behind a sleep.  A thread that the signal
finds within its inner loop still empties its queue; a thread between two rounds
leaves without another look.  What is left in a queue is then exactly what was
appended after its consumer last found it empty.

Main results:

- Theorem `seenInv_of_reachable`: a queue between two rounds of its consumer.
- Theorem `afterSignal_of_reachableFrom`: what a signal leaves the threads to do.
- Theorem `shutdown_leaves`: the contents of both queues once both threads left.
- Theorem `shutdown_loses_readings`: a run that leaves readings in both queues.
-/

namespace AlertProbe

open Foundations

/-! ## Between two rounds -/

/-- The format thread is outside its inner loop and about to test `signum`, or has left. -/
def FormatPC.betweenRounds : FormatPC → Bool
  | .sleep | .testSignum | .exited => true
  | _ => false

/-- The sender thread is outside its round and about to test `signum`, or has left. -/
def SenderPC.betweenRounds : SenderPC → Bool
  | .sleep | .testSignum | .exited => true
  | _ => false

/-- Between two rounds of its consumer a queue holds what was appended since the consumer
last found it empty. -/
structure SeenInv (s : State) : Prop where
  collect_le : s.history.collectSeen ≤ s.history.pushed.length
  collect_eq : s.format.betweenRounds = true →
    s.collectQueue.first = s.history.pushed.drop s.history.collectSeen
  sd_le : s.history.sdSeen ≤ s.history.queued.length
  sd_eq : s.sender.betweenRounds = true →
    s.sdElementQueue.first = s.history.queued.drop s.history.sdSeen

/-- The steps of an addon keep what the queues hold between two rounds. -/
theorem SeenInv.addonStep {i : Nat} {e : CollectQueueElement} {s s' : State} (h : SeenInv s)
    (hs : AddonStep i e s s') : SeenInv s' := by
  cases hs with
  | append hpc =>
      refine { h with collect_le := ?_, collect_eq := ?_ }
      · exact le_trans h.collect_le (by simp)
      · intro hbetween
        simp only [LockedQueue.append_first]
        rw [List.drop_append_of_le_length h.collect_le, h.collect_eq hbetween]
  | _ => exact { h with }

/-- The steps of the format thread keep what the queues hold between two rounds. -/
theorem SeenInv.formatStep {p : Params} {s s' : State} (h : SeenInv s)
    (hs : FormatStep p s s') : SeenInv s' := by
  cases hs with
  | sawEmpty hpc hfirst =>
      exact { h with
        collect_le := le_refl _
        collect_eq := fun _ => by simp [hfirst] }
  | pushAppend hpc =>
      refine { h with collect_eq := fun hbetween => ?_, sd_le := ?_, sd_eq := ?_ }
      · cases hbetween
      · exact le_trans h.sd_le (by simp)
      · intro hbetween
        simp only [LockedQueue.append_first]
        rw [List.drop_append_of_le_length h.sd_le, h.sd_eq hbetween]
  | exit hpc | wake hpc =>
      exact { h with collect_eq := fun _ => h.collect_eq (by rw [hpc]; rfl) }
  | _ => exact { h with collect_eq := fun hbetween => by cases hbetween }

/-- The steps of the sender thread keep what the queues hold between two rounds. -/
theorem SeenInv.senderStep {p : Params} {env : SendEnv} {s s' : State} (h : SeenInv s)
    (hs : SenderStep p env s s') : SeenInv s' := by
  cases hs with
  | sawEmpty hpc hfirst =>
      exact { h with
        sd_le := le_refl _
        sd_eq := fun _ => by simp [hfirst] }
  | pushAppend hpc =>
      refine { h with sd_le := ?_, sd_eq := fun hbetween => ?_ }
      · exact le_trans h.sd_le (by simp)
      · cases hbetween
  | exit hpc | wake hpc =>
      exact { h with sd_eq := fun _ => h.sd_eq (by rw [hpc]; rfl) }
  | _ => exact { h with sd_eq := fun hbetween => by cases hbetween }

/-- What the queues hold between two rounds in every reachable state. -/
theorem seenInv_of_reachable {p : Params} {s : State} (h : (probe p).Reachable s) :
    SeenInv s := by
  apply h.invariant
  · exact ⟨le_refl _, fun _ => rfl, le_refl _, fun _ => rfl⟩
  · intro s a s' hinv hstep
    cases step_cases hstep with
    | addon hs => exact hinv.addonStep hs
    | format hs => exact hinv.formatStep hs
    | sender hs => exact hinv.senderStep hs
    | _ => exact { hinv with }

/-! ## Behind a signal -/

/-- The action appends nothing to the collect queue. -/
def appendsNothing (s : State) : Action → Bool
  | .addon i _ => decide (s.addons i ≠ .append)
  | _ => true

/-- The probe while its addons append nothing. -/
def silentProbe (p : Params) : Machine State Action :=
  (probe p).restrict fun s a => appendsNothing s a = true

/-- What has become of the state `s` behind a signal while the addons append nothing. -/
structure AfterSignal (s t : State) : Prop where
  signum : t.signum ≠ 0
  pushed : t.history.pushed = s.history.pushed
  format_leaves : s.format.betweenRounds = true →
    t.format.betweenRounds = true ∧ t.collectQueue.first = s.collectQueue.first
  format_drains : s.format.betweenRounds = false → t.format.betweenRounds = true →
    t.collectQueue.first = []
  sender_leaves : s.sender.betweenRounds = true →
    t.sender.betweenRounds = true ∧ t.history.handed = s.history.handed

/-- The format thread goes on as a signal leaves it to. -/
theorem AfterSignal.formatStep {p : Params} {s t t' : State} (h : AfterSignal s t)
    (hs : FormatStep p t t') : AfterSignal s t' := by
  cases hs with
  | «continue» hpc hzero => exact absurd hzero h.signum
  | exit hpc hsignum | wake hpc =>
      have hbetween : t.format.betweenRounds = true := by
        rw [hpc]
        rfl
      exact { h with
        format_leaves := fun hs => ⟨rfl, (h.format_leaves hs).2⟩
        format_drains := fun hs _ => h.format_drains hs hbetween }
  | sawEmpty hpc hfirst =>
      refine { h with format_leaves := ?_, format_drains := fun _ _ => hfirst }
      intro hs
      have hbetween := (h.format_leaves hs).1
      rw [hpc] at hbetween
      cases hbetween
  | sawElement hpc | lock hpc | popNothing hpc | pop hpc | pushLock hpc | pushAppend hpc
  | pushUnlock hpc | advance hpc | unlock hpc =>
      -- steps of the inner loop, which a thread between two rounds does not enter any more
      refine { h with format_leaves := ?_, format_drains := fun _ hend => by cases hend }
      intro hs
      have hbetween := (h.format_leaves hs).1
      rw [hpc] at hbetween
      cases hbetween

/-- The sender thread goes on as a signal leaves it to. -/
theorem AfterSignal.senderStep {p : Params} {env : SendEnv} {s t t' : State}
    (h : AfterSignal s t) (hs : SenderStep p env t t') : AfterSignal s t' := by
  cases hs with
  | «continue» hpc hzero => exact absurd hzero h.signum
  | exit hpc hsignum | wake hpc =>
      exact { h with sender_leaves := fun hs => ⟨rfl, (h.sender_leaves hs).2⟩ }
  | time hpc | due hpc | notDue hpc | busy hpc | pushLock hpc | pushAppend hpc | pushUnlock hpc
  | proceed hpc | sawEmpty hpc | sawElement hpc | lock hpc | popNothing hpc | pop hpc
  | sendMessage hpc | advance hpc | unlock hpc | reset hpc =>
      refine { h with sender_leaves := ?_ }
      intro hs
      have hbetween := (h.sender_leaves hs).1
      rw [hpc] at hbetween
      cases hbetween

/-- Behind a signal, and while the addons append nothing, the threads go on as the signal
leaves them to. -/
theorem afterSignal_of_reachableFrom {p : Params} {s t : State} (hsignum : s.signum ≠ 0)
    (h : (silentProbe p).ReachableFrom s t) : AfterSignal s t := by
  apply h.invariant
  · refine ⟨hsignum, rfl, fun hs => ⟨hs, rfl⟩, ?_, fun hs => ⟨hs, rfl⟩⟩
    intro hinside hbetween
    rw [hinside] at hbetween
    cases hbetween
  · intro t a t' hinv hstep
    rcases Machine.restrict_step_eq_next.mp hstep with ⟨hsilent, hstep⟩
    cases step_cases hstep with
    | addon hs =>
        cases hs with
        | append hpc => simp [appendsNothing, hpc] at hsilent
        | _ => exact { hinv with }
    | format hs => exact hinv.formatStep hs
    | sender hs => exact hinv.senderStep hs
    | signal hnew => exact { hinv with signum := hnew }
    | _ => exact { hinv with }

/-! ## Once both threads have left -/

/-- Once the format thread has left, the collect queue is empty, or as the signal found it if
that found the thread between two rounds. -/
theorem AfterSignal.collectQueue_first {s t : State} (h : AfterSignal s t)
    (hformat : t.format.betweenRounds = true) :
    t.collectQueue.first = if s.format.betweenRounds then s.collectQueue.first else [] := by
  cases hbetween : s.format.betweenRounds with
  | true => exact (h.format_leaves hbetween).2
  | false => exact h.format_drains hbetween hformat

/-- Between two rounds the sender thread has handed over what it has seen. -/
theorem sent_eq_take {p : Params} {s : State} (h : (probe p).Reachable s)
    (hbetween : s.sender.betweenRounds = true) :
    s.pendingSD = s.sdElementQueue.first ∧
      s.history.sent = s.history.queued.take s.history.sdSeen := by
  have hpending : s.pendingSD = s.sdElementQueue.first := by
    cases hpc : s.sender with
    | advance =>
        rw [hpc] at hbetween
        cases hbetween
    | _ => simp [State.pendingSD, SenderPC.pending, hpc]
  have hall := sent_append_pendingSD h
  rw [hpending, (seenInv_of_reachable h).sd_eq hbetween] at hall
  exact ⟨hpending, List.append_cancel_right (hall.trans (List.take_append_drop _ _).symm)⟩

/-- What shutdown leaves behind.  Let `s` be a state behind a signal from which the addons
append nothing, and `t` a state in which both threads have left.  The collect queue is empty
if `s` finds the format thread within its inner loop, and as in `s` otherwise.  The
SD-Element queue holds what was appended since the sender thread last found it empty, and
everything before that, in order, was handed over; nothing more is handed over if `s` finds
the sender thread between two rounds.  No reading is anywhere else.  So both queues are
drained exactly when the format thread was not kept from a reading and the last look of the
sender thread came after the last append. -/
theorem shutdown_leaves {p : Params} {s t : State} (hs : (probe p).Reachable s)
    (hsignum : s.signum ≠ 0) (ht : (silentProbe p).ReachableFrom s t)
    (hformat : t.format = .exited) (hsender : t.sender = .exited) :
    t.collectQueue.first = (if s.format.betweenRounds then s.collectQueue.first else []) ∧
    t.sdElementQueue.first = t.history.queued.drop t.history.sdSeen ∧
    t.history.sent = t.history.queued.take t.history.sdSeen ∧
    (s.sender.betweenRounds = true → t.history.sent = s.history.sent) ∧
    t.history.sent.filter SDElementQueueElement.isData ++
        t.sdElementQueue.first.filter SDElementQueueElement.isData ++
        t.collectQueue.first.map (render p.glib p.header) =
      s.history.pushed.map (render p.glib p.header) ∧
    ((t.collectQueue.first = [] ∧ t.sdElementQueue.first = []) ↔
      (s.format.betweenRounds = true → s.collectQueue.first = []) ∧
        t.history.sdSeen = t.history.queued.length) := by
  have hreachable : (probe p).Reachable t := hs.trans ht.of_restrict
  have hafter := afterSignal_of_reachableFrom hsignum ht
  have hseen := seenInv_of_reachable hreachable
  have hbetween : t.sender.betweenRounds = true := by
    rw [hsender]
    rfl
  have hcollect := hafter.collectQueue_first (by rw [hformat]; rfl)
  have hsd := hseen.sd_eq hbetween
  rcases sent_eq_take hreachable hbetween with ⟨hpending, hsent⟩
  refine ⟨hcollect, hsd, hsent, ?_, ?_, ?_⟩
  · intro hleaves
    rw [History.sent, (hafter.sender_leaves hleaves).2, History.sent]
  · have hunpushed : t.unpushed = t.collectQueue.first := by
      simp [State.unpushed, FormatPC.unpushed, hformat]
    have hfifo := readings_conserved hreachable
    rw [hpending, hunpushed, List.filter_append, hafter.pushed] at hfifo
    exact hfifo
  · have hlooked : t.history.queued.length ≤ t.history.sdSeen ↔
        t.history.sdSeen = t.history.queued.length :=
      ⟨fun hle => le_antisymm hseen.sd_le hle, fun heq => le_of_eq heq.symm⟩
    rw [hcollect, hsd, List.drop_eq_nil_iff, ite_eq_right_iff, hlooked]

/-- A signal finds both threads within their rounds; both queues are drained. -/
theorem shutdown_leaves_run :
    ∃ s t : State, s.format.betweenRounds = false ∧ t.history.sent.length = 2 ∧
      t.collectQueue.first = [] ∧ t.sdElementQueue.first = [] := by
  have hrun : (probe exampleParams).EndsIn State.start
      (List.replicate 3 (Action.addon 0 exampleReading) ++ List.replicate 2 Action.format ++
        List.replicate 7 (Action.sender (exampleEnv 100)) ++ [Action.signal 15])
      (fun s => s.signum = 15 ∧ s.format.betweenRounds = false ∧
        (silentProbe exampleParams).EndsIn s
          (List.replicate 10 Action.format ++ List.replicate 17 (Action.sender (exampleEnv 100)))
          fun t => t.format = .exited ∧ t.sender = .exited ∧
            t.history.sent.length = 2 ∧ t.history.sdSeen = t.history.queued.length) := by
    decide
  rcases Machine.exists_reachable_of_endsIn hrun with ⟨s, hs, hsignum, hinside, hend⟩
  rcases Machine.exists_reachableFrom_of_endsIn hend with
    ⟨t, ht, hformat, hsender, hsent, hlooked⟩
  rcases shutdown_leaves hs (by rw [hsignum]; decide) ht hformat hsender with
    ⟨_, _, _, _, _, hdrained⟩
  have hkept : s.format.betweenRounds = true → s.collectQueue.first = [] := by
    rw [hinside]
    intro hbetween
    cases hbetween
  rcases hdrained.mpr ⟨hkept, hlooked⟩ with ⟨hcollect, hsd⟩
  exact ⟨s, t, hinside, hsent, hcollect, hsd⟩

/-- The sender thread has not started its first round and the format thread sleeps, having
pushed one reading; then another reading is collected and a signal arrives.  Both threads
leave; one reading stays in each queue. -/
theorem shutdown_loses_readings :
    ∃ s t : State, (probe exampleParams).Reachable s ∧ s.signum = 15 ∧
      (silentProbe exampleParams).ReachableFrom s t ∧
      t.format = .exited ∧ t.sender = .exited ∧
      t.collectQueue.first = [exampleReading] ∧
      t.sdElementQueue.first = [render exampleGLib exampleHeader exampleReading] := by
  have hrun : (probe exampleParams).EndsIn State.start
      (List.replicate 3 (Action.addon 0 exampleReading) ++ List.replicate 10 Action.format ++
        List.replicate 3 (Action.addon 0 exampleReading) ++ [Action.signal 15])
      (fun s => s.signum = 15 ∧
        (silentProbe exampleParams).EndsIn s
          (List.replicate 2 Action.format ++ [Action.sender (exampleEnv 100)])
          fun t => t.format = .exited ∧ t.sender = .exited ∧
            t.collectQueue.first = [exampleReading] ∧
            t.sdElementQueue.first =
              [render exampleGLib exampleHeader exampleReading]) := by
    decide
  rcases Machine.exists_reachable_of_endsIn hrun with ⟨s, hs, hsignum, hend⟩
  rcases Machine.exists_reachableFrom_of_endsIn hend with ⟨t, ht, hleft⟩
  exact ⟨s, t, hs, hsignum, ht, hleft⟩

end AlertProbe
