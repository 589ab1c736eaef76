import AlertProbe.Model.Threads

/-!
# Uninterrupted calls

A call that no other thread interrupts has the effect of the function it calls:
the lock-level steps of the format thread add up to `popCollectQueue`, and those
of the sender thread to `popSDElementQueue` and `heartBeat`.

Main results:

- Theorem `run_popCollectQueue`: a round of the format thread.
- Theorem `run_popSDElementQueue`: a round of the sender thread's drain loop.
- Theorem `run_heartBeat`: a call of `heartBeat`.
-/

namespace AlertProbe

open Foundations

/-- Seven steps of the format thread call `popCollectQueue` on a nonempty queue. -/
theorem run_popCollectQueue {p : Params} {s : State} {e : CollectQueueElement}
    {next : List CollectQueueElement} (hpc : s.format = .lock)
    (hcollect : s.collectQueue = ⟨none, e :: next⟩) (hfree : s.sdElementQueue.mutex = none)
    {out : List CollectQueueElement × List SDElementQueueElement}
    (hpop : popCollectQueue p.glib p.header (e :: next) s.sdElementQueue.first = some out) :
    (probe p).run s (List.replicate 7 Action.format) = .next
      { s with
        collectQueue := ⟨none, out.1⟩
        sdElementQueue := ⟨none, out.2⟩
        format := .testFirst
        history :=
          { s.history with
            queued := s.history.queued ++ [render p.glib p.header e] } } := by
  rcases popCollectQueue_eq_some.mp hpop with ⟨rfl, hoffset, hbefore, hafter⟩
  have hformat : formatElement p.glib e = some (renderOffset p.glib e) :=
    formatElement_eq_some.mpr ⟨rfl, hoffset⟩
  have hnew : newSDElement p.header (renderOffset p.glib e) e.time =
      some (render p.glib p.header e) :=
    newSDElement_eq_some.mpr ⟨rfl, hbefore, hafter⟩
  simp [Machine.run, probe, step, formatStep, hpc, hcollect, hfree, hformat, hnew,
    LockedQueue.lock, LockedQueue.append, LockedQueue.unlock, LockedQueue.advance]

/-- Five steps of the sender thread call `popSDElementQueue` on a nonempty queue. -/
theorem run_popSDElementQueue {p : Params} {s : State} {e : SDElementQueueElement}
    {next : List SDElementQueueElement} (hpc : s.sender = .lock)
    (hqueue : s.sdElementQueue = ⟨none, e :: next⟩) {env : SendEnv} {result : PopResult}
    (hpop : popSDElementQueue p.glib p.sender (e :: next) s.msgID env = some result) :
    ∃ sent, result.sent = some sent ∧
      (probe p).run s (List.replicate 5 (Action.sender env)) = .next
        { s with
          sdElementQueue := ⟨none, result.queue⟩
          sender := .reset
          history :=
            { s.history with
              handed := s.history.handed ++ [⟨e, s.msgID, env, sent⟩]
              clock := env.now } } := by
  simp only [popSDElementQueue, Option.bind_eq_bind, Option.bind_eq_some_iff,
    Option.some.injEq] at hpop
  rcases hpop with ⟨sent, hsend, rfl⟩
  refine ⟨sent, rfl, ?_⟩
  simp [Machine.run, probe, step, senderStep, hpc, hqueue, hsend, LockedQueue.lock,
    LockedQueue.unlock, LockedQueue.advance]

/-- A call of `heartBeat` by the sender thread. -/
theorem run_heartBeat {p : Params} {s : State} (hpc : s.sender = .time)
    (hfree : s.sdElementQueue.mutex = none) {env : SendEnv} {result : HeartBeatResult}
    (hbeat : heartBeat p.header env.now s.tmpTime s.sdElementQueue.first = some result) :
    ∃ n, (probe p).EndsIn s (List.replicate n (.sender env)) fun t =>
      t.sender = .returned env.now result.returned ∧ t.tmpTime = result.tmpTime ∧
        t.sdElementQueue.mutex = none ∧ t.sdElementQueue.first = result.queue := by
  unfold heartBeat at hbeat
  split at hbeat
  · rename_i hidle
    split at hbeat
    · rename_i hdue
      simp only [pushSDElementQueue, Option.bind_eq_bind, Option.bind_eq_some_iff,
        Option.some.injEq] at hbeat
      rcases hbeat with ⟨queue, ⟨new, hnew, rfl⟩, rfl⟩
      -- time, test, lock, append and unlock
      refine ⟨5, ?_⟩
      simp [Machine.EndsIn, Outcome.Holds, Machine.run, probe, step, senderStep, hpc, hidle,
        hdue, hnew, hfree, LockedQueue.lock]
    · rename_i hdue
      cases hbeat
      refine ⟨2, ?_⟩
      simp [Machine.EndsIn, Outcome.Holds, Machine.run, probe, step, senderStep, hpc, hidle,
        hdue, hfree]
  · rename_i hidle
    cases hbeat
    refine ⟨2, ?_⟩
    simp [Machine.EndsIn, Outcome.Holds, Machine.run, probe, step, senderStep, hpc, hidle, hfree]

end AlertProbe
