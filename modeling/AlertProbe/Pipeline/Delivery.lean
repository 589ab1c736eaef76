import AlertProbe.Pipeline.Fifo
import AlertProbe.Transport.Paths

/-!
# Failed transmissions

`popSDElementQueue` dequeues the element whether or not `sendMessage` could send
it, and always returns `EXIT_SUCCESS`.  A failed transmission therefore loses the
element: the queue is kept, and the failure reported, exactly when there is no
failure to report.

Main results:

- Theorem `keepsFailed_iff`: when one call of `popSDElementQueue` is safe.
- Theorem `sent_successfully`: what runs without a failed transmission deliver.
- Theorem `failed_transmission_safe_iff`: both together.
-/

namespace AlertProbe

open Foundations

/-! ## One call -/

/-- What a call of `popSDElementQueue` on `queue` owes its caller: it removes the first
element only when it was sent, and a failure leaves the queue alone and shows in the exit
status. -/
structure KeepsFailed (queue : List SDElementQueueElement) (result : PopResult) : Prop where
  removes_sent : result.queue ≠ queue →
    ∃ sent, result.sent = some sent ∧ sent.status = exitSuccess
  keeps_failed : ∀ sent, result.sent = some sent → sent.status ≠ exitSuccess →
    result.queue = queue ∧ result.status ≠ exitSuccess

/-- A call is safe exactly when the queue is empty or the transport reports success. -/
theorem keepsFailed_iff {glib : GLib} {params : SenderParams}
    {queue : List SDElementQueueElement} {msgID : UInt16} {env : SendEnv} {result : PopResult}
    (h : popSDElementQueue glib params queue msgID env = some result) :
    KeepsFailed queue result ↔
      queue = [] ∨ env.reportsSuccess params.protocol = true := by
  cases queue with
  | nil =>
      simp only [popSDElementQueue, Option.some.injEq] at h
      subst h
      constructor
      · intro _
        exact Or.inl rfl
      · intro _
        refine ⟨fun hne => absurd rfl hne, ?_⟩
        intro sent hsent
        cases hsent
  | cons e next =>
      simp only [popSDElementQueue, Option.bind_eq_bind, Option.bind_eq_some_iff,
        Option.some.injEq] at h
      rcases h with ⟨sent, hsend, hresult⟩
      subst hresult
      have hstatus := sendMessage_status hsend
      have hremoved : next ≠ e :: next := (List.cons_ne_self e next).symm
      constructor
      · intro hsafe
        right
        by_contra hfailure
        have hfailed : sent.status ≠ exitSuccess := fun hok => hfailure (hstatus.mp hok)
        exact hremoved (hsafe.keeps_failed sent rfl hfailed).1
      · intro hok
        have hsuccess : sent.status = exitSuccess :=
          hstatus.mpr (hok.resolve_left (List.cons_ne_nil e next))
        refine ⟨fun _ => ⟨sent, rfl, hsuccess⟩, ?_⟩
        intro other hother hfailed
        cases hother
        exact absurd hsuccess hfailed

/-! ## Runs -/

/-- If the action calls `sendMessage`, the transport reports success. -/
def sendSucceeds (p : Params) (s : State) (a : Action) : Bool :=
  match s.sender, a with
  | .sendMessage _, .sender env => env.reportsSuccess p.sender.protocol
  | _, _ => true

/-- Where every transmission succeeds, everything handed over was sent. -/
theorem sent_successfully {p : Params} {s : State}
    (h : ((probe p).restrict fun s a => sendSucceeds p s a = true).Reachable s) :
    ∀ handed ∈ s.history.handed, handed.result.status = exitSuccess := by
  apply h.invariant (P := fun s => ∀ handed ∈ s.history.handed,
    handed.result.status = exitSuccess)
  · intro handed hmem
    cases hmem
  · intro s a s' hall hstep
    rcases Machine.restrict_step_eq_next.mp hstep with ⟨hok, hstep⟩
    rcases (step_cases hstep).handed_cases with hsame | ⟨e, env, result, hpc, rfl, hsend, hnew⟩
    · rw [hsame]
      exact hall
    · simp only [sendSucceeds, hpc] at hok
      rw [hnew, List.forall_mem_append, List.forall_mem_singleton]
      exact ⟨hall, (sendMessage_status hsend).mpr hok⟩

/-- A failed transmission loses no element in exactly these cases: a call of
`popSDElementQueue` on an empty queue, and a call with which the transport reports success.
In a run in which every call of `sendMessage` is of the second kind, every element ever
queued is still in the queue or belongs to a call of `sendMessage` that returned
`EXIT_SUCCESS`, position by position. -/
theorem failed_transmission_safe_iff (p : Params) :
    (∀ queue msgID env result,
      popSDElementQueue p.glib p.sender queue msgID env = some result →
        (KeepsFailed queue result ↔
          queue = [] ∨ env.reportsSuccess p.sender.protocol = true)) ∧
    (∀ s, ((probe p).restrict fun s a => sendSucceeds p s a = true).Reachable s →
      s.history.queued = s.history.handed.map Handed.element ++ s.pendingSD ∧
        (∀ e ∈ s.pendingSD, e ∈ s.sdElementQueue.first) ∧
        ∀ handed ∈ s.history.handed, handed.result.status = exitSuccess) := by
  constructor
  · intro queue msgID env result h
    exact keepsFailed_iff h
  · intro s h
    refine ⟨(sent_append_pendingSD (Machine.Reachable.of_restrict h)).symm, ?_,
      sent_successfully h⟩
    intro e he
    unfold State.pendingSD SenderPC.pending at he
    split at he
    · exact List.mem_of_mem_tail he
    · exact he

/-- A call that succeeds, and a run in which a reading is handed over. -/
theorem failed_transmission_safe_iff_run :
    (∃ result, popSDElementQueue exampleGLib exampleParams.sender
        [render exampleGLib exampleHeader exampleReading] 1 (exampleEnv 100) = some result ∧
      KeepsFailed [render exampleGLib exampleHeader exampleReading] result) ∧
    ∃ s : State, s.history.handed.length = 1 ∧
      ∀ handed ∈ s.history.handed, handed.result.status = exitSuccess := by
  constructor
  · refine ⟨_, rfl, ?_⟩
    exact ((failed_transmission_safe_iff exampleParams).1 _ 1 (exampleEnv 100) _ rfl).mpr
      (Or.inr rfl)
  · have hrun : ((probe exampleParams).restrict
        fun s a => sendSucceeds exampleParams s a = true).EndsIn State.start
        (List.replicate 3 (Action.addon 0 exampleReading) ++ List.replicate 11 Action.format ++
          List.replicate 12 (Action.sender (exampleEnv 100)))
        (fun s => s.history.handed.length = 1) := by
      decide
    rcases Machine.exists_reachable_of_endsIn hrun with ⟨s, hs, hhanded⟩
    exact ⟨s, hhanded,
      ((failed_transmission_safe_iff exampleParams).2 s hs).2.2⟩

/-- The queue holds one reading and the engine refuses the connection: `sendMessage` fails, the
reading is gone and the exit status is `EXIT_SUCCESS`. -/
theorem refused_connection_loses_reading :
    ∃ result sent, popSDElementQueue exampleGLib exampleParams.sender
        [render exampleGLib exampleHeader exampleReading] 1 (refusedEnv 100) = some result ∧
      result.sent = some sent ∧ sent.status = exitFailure ∧
      result.queue = [] ∧ result.status = exitSuccess ∧
      ¬ KeepsFailed [render exampleGLib exampleHeader exampleReading] result := by
  refine ⟨_, _, rfl, rfl, rfl, rfl, rfl, ?_⟩
  intro hsafe
  have hkept := (hsafe.keeps_failed _ rfl (by decide)).1
  exact absurd hkept (by decide)

end AlertProbe
