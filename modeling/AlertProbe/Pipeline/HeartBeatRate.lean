import AlertProbe.Pipeline.HeartBeat

/-!
# The rate of heartbeats

`heartBeat` queues no two heartbeats within `HEARTBEAT` seconds, whatever the
other threads do: `tmpTime` is never before the last heartbeat that was queued.

Main results:

- Theorem `heartBeatRateInv_of_reachable`: what `tmpTime` says about the heartbeats.
- Theorem `heartBeat_rate`: the distance of the heartbeats and their number.
-/

namespace AlertProbe

open Foundations

/-- The times of the heartbeats ever queued, oldest first. -/
def History.heartBeats (history : History) : List Time :=
  (history.queued.filter fun e => !e.isData).map SDElementQueueElement.time

/-- What the sender thread knows about the times of the heartbeats queued so far. -/
def SenderPC.BeatsOk (tmpTime : Time) (beats : List Time) : SenderPC → Prop
  | .push .lock _ t | .push .append _ t => ∀ beat ∈ beats, HEARTBEAT < t - beat
  | .push .unlock _ t => ∀ beat ∈ beats, beat ≤ t
  | _ => ∀ beat ∈ beats, beat ≤ tmpTime

/-- The heartbeats queued so far, and what `tmpTime` says about them. -/
structure HeartBeatRateInv (s : State) : Prop where
  clock : 0 ≤ s.history.clock
  apart : s.history.heartBeats.Pairwise fun earlier later => HEARTBEAT < later - earlier
  positive : ∀ beat ∈ s.history.heartBeats, 0 < beat
  recorded : s.sender.BeatsOk s.tmpTime s.history.heartBeats

/-- The steps of the format thread queue no heartbeat. -/
theorem FormatStep.heartBeats_eq {p : Params} {s s' : State} (hhead : HeadInv p s)
    (hs : FormatStep p s s') : s'.history.heartBeats = s.history.heartBeats := by
  have hformat := hhead.format
  cases hs with
  | pushAppend hpc =>
      rw [hpc] at hformat
      rcases hformat with ⟨e, _, rfl⟩
      simp [History.heartBeats]
  | _ => rfl

/-- The steps of the format thread leave the sender thread's time alone. -/
theorem HeartBeatRateInv.formatStep {p : Params} {s s' : State} (h : HeartBeatRateInv s)
    (hhead : HeadInv p s) (hs : FormatStep p s s') : HeartBeatRateInv s' := by
  have hsame := hs.heartBeats_eq hhead
  have hsender : s'.sender = s.sender ∧ s'.tmpTime = s.tmpTime := by
    cases hs <;> exact ⟨rfl, rfl⟩
  have hclock : s'.history.clock = s.history.clock := by
    cases hs <;> rfl
  refine ⟨?_, ?_, ?_, ?_⟩
  · rw [hclock]
    exact h.clock
  · rw [hsame]
    exact h.apart
  · rw [hsame]
    exact h.positive
  · rw [hsame, hsender.1, hsender.2]
    exact h.recorded

/-- The steps of the sender thread keep the heartbeats apart. -/
theorem HeartBeatRateInv.senderStep {p : Params} {env : SendEnv} {s s' : State}
    (h : HeartBeatRateInv s) (hinv : HeartBeatInv p s) (hhead : HeadInv p s)
    (hclock : clockAdvances s (.sender env) = true) (hs : SenderStep p env s s') :
    HeartBeatRateInv s' := by
  have htime := hinv.time
  have hsender := hhead.sender
  have hrecorded := h.recorded
  cases hs with
  | time hpc =>
      rw [hpc] at hrecorded
      simp only [clockAdvances, hpc, decide_eq_true_eq] at hclock
      exact ⟨le_of_lt hclock.1, h.apart, h.positive, hrecorded⟩
  | sendMessage hpc hsend =>
      rw [hpc] at hrecorded
      simp only [clockAdvances, hpc, decide_eq_true_eq] at hclock
      exact ⟨le_of_lt hclock.1, h.apart, h.positive, hrecorded⟩
  | @due t hpc hidle hdue =>
      rw [hpc] at hrecorded
      refine ⟨h.clock, h.apart, h.positive, ?_⟩
      intro beat hbeat
      have hbefore : beat ≤ s.tmpTime := hrecorded beat hbeat
      rcases hdue with hfirst | hlong
      · have hpos := h.positive beat hbeat
        rw [hfirst] at hbefore
        exact absurd hpos (not_lt.mpr hbefore)
      · exact lt_of_lt_of_le hlong (sub_le_sub_left hbefore t)
  | @busy t hpc hbusy hnotFirst =>
      rw [hpc] at hrecorded htime
      refine ⟨h.clock, h.apart, h.positive, ?_⟩
      intro beat hbeat
      have hbefore : beat ≤ s.tmpTime := hrecorded beat hbeat
      exact le_trans hbefore (htime.1 ▸ hinv.recorded)
  | pushLock hpc hfree =>
      rw [hpc] at hrecorded
      exact ⟨h.clock, h.apart, h.positive, hrecorded⟩
  | @pushAppend new t hpc =>
      rw [hpc] at hrecorded hsender htime
      have hbeats : (s.history.queued ++ [new]).filter (fun e => !e.isData) =
          s.history.queued.filter (fun e => !e.isData) ++ [renderHeartBeat p.header t] := by
        simp [show new = renderHeartBeat p.header t from hsender]
      have hnew : ∀ beat ∈ s.history.heartBeats, HEARTBEAT < t - beat := hrecorded
      refine ⟨h.clock, ?_, ?_, ?_⟩
      · simp only [History.heartBeats, hbeats, List.map_append, List.pairwise_append]
        refine ⟨h.apart, by simp, ?_⟩
        intro beat hbeat later hlater
        rw [List.map_singleton, List.mem_singleton] at hlater
        rw [hlater]
        exact hnew beat hbeat
      · intro beat hbeat
        simp only [History.heartBeats, hbeats, List.map_append, List.mem_append] at hbeat
        rcases hbeat with hold | hlast
        · exact h.positive beat hold
        · rw [List.map_singleton, List.mem_singleton] at hlast
          rw [hlast]
          exact htime.2
      · intro beat hbeat
        simp only [History.heartBeats, hbeats, List.map_append, List.mem_append] at hbeat
        rcases hbeat with hold | hlast
        · have hpos : (0 : Time) < t - beat := lt_trans (by decide) (hnew beat hold)
          exact le_of_lt (sub_pos.mp hpos)
        · rw [List.map_singleton, List.mem_singleton] at hlast
          exact le_of_eq hlast
  | pushUnlock hpc =>
      rw [hpc] at hrecorded
      exact ⟨h.clock, h.apart, h.positive, hrecorded⟩
  | _ =>
      rw [‹s.sender = _›] at hrecorded
      exact ⟨h.clock, h.apart, h.positive, hrecorded⟩

/-- Every step of the probe keeps the heartbeats apart. -/
theorem HeartBeatRateInv.step {p : Params} {s s' : State} {a : Action} (h : HeartBeatRateInv s)
    (hinv : HeartBeatInv p s) (hhead : HeadInv p s) (hclock : clockAdvances s a = true)
    (hs : ProbeStep p s a s') : HeartBeatRateInv s' := by
  cases hs with
  | addon hs => cases hs <;> exact ⟨h.clock, h.apart, h.positive, h.recorded⟩
  | format hs => exact h.formatStep hhead hs
  | sender hs => exact h.senderStep hinv hhead hclock hs
  | _ => exact ⟨h.clock, h.apart, h.positive, h.recorded⟩

/-- The heartbeats in every state that is reachable while time advances. -/
theorem heartBeatRateInv_of_reachable {p : Params} {s : State}
    (h : (timedProbe p).Reachable s) : HeartBeatRateInv s := by
  apply h.invariant'
  · refine ⟨le_refl _, List.Pairwise.nil, ?_, ?_⟩
    · intro beat hbeat
      cases hbeat
    · intro beat hbeat
      cases hbeat
  · intro s a s' hs hinv hstep
    rcases Machine.restrict_step_eq_next.mp hstep with ⟨hclock, hstep⟩
    exact hinv.step (heartBeatInv_of_reachable hs) (headInv_of_reachable hs.of_restrict) hclock
      (step_cases hstep)

/-- No heartbeat is later than the last clock reading. -/
theorem HeartBeatRateInv.le_clock {p : Params} {s : State} (h : HeartBeatRateInv s)
    (hinv : HeartBeatInv p s) {beat : Time} (hbeat : beat ∈ s.history.heartBeats) :
    beat ≤ s.history.clock := by
  have htime := hinv.time
  have hrecorded := h.recorded
  cases hpc : s.sender with
  | push pc new t =>
      rw [hpc] at htime hrecorded
      cases pc with
      | unlock =>
          rw [← htime.1]
          exact hrecorded beat hbeat
      | _ =>
          have hpos : (0 : Time) < t - beat := lt_trans (by decide) (hrecorded beat hbeat)
          rw [← htime.1]
          exact le_of_lt (sub_pos.mp hpos)
  | _ =>
      rw [hpc] at hrecorded
      exact le_trans (hrecorded beat hbeat) hinv.recorded

/-- Numbers between two bounds that are more than `gap` apart are few. -/
theorem length_mul_le_of_apart {gap low high : Int} (hlow : low ≤ high + gap)
    {l : List Int} (happart : l.Pairwise fun earlier later => gap < later - earlier)
    (hwithin : ∀ x ∈ l, low < x ∧ x ≤ high) :
    (gap + 1) * l.length ≤ high - low + gap := by
  induction l generalizing low with
  | nil =>
      rw [List.length_nil, Nat.cast_zero, mul_zero]
      omega
  | cons x l ih =>
      rw [List.pairwise_cons] at happart
      rcases hwithin x List.mem_cons_self with ⟨hx, hxhigh⟩
      have hrest : (gap + 1) * l.length ≤ high - (x + gap) + gap := by
        apply ih (by omega) happart.2
        intro y hy
        have hfar := happart.1 y hy
        exact ⟨by omega, (hwithin y (List.mem_cons_of_mem x hy)).2⟩
      rw [List.length_cons, Nat.cast_succ, mul_add, mul_one]
      omega

/-- Heartbeats are rare.  While time advances, any two heartbeats that were queued are more
than `HEARTBEAT` seconds apart, in the order in which they were queued, so up to the time `t`
there are no more than `(t + HEARTBEAT) / (HEARTBEAT + 1)` of them. -/
theorem heartBeat_rate {p : Params} {s : State} (h : (timedProbe p).Reachable s) :
    (s.history.heartBeats.Pairwise fun earlier later => HEARTBEAT < later - earlier) ∧
      (HEARTBEAT + 1) * s.history.heartBeats.length ≤ s.history.clock + HEARTBEAT := by
  have hrate := heartBeatRateInv_of_reachable h
  have hinv := heartBeatInv_of_reachable h
  refine ⟨hrate.apart, ?_⟩
  have hlow : (0 : Int) ≤ s.history.clock + HEARTBEAT :=
    add_nonneg hrate.clock (by decide)
  have hbound := length_mul_le_of_apart hlow hrate.apart
    (fun beat hbeat => ⟨hrate.positive beat hbeat, hrate.le_clock hinv hbeat⟩)
  rw [sub_zero] at hbound
  exact hbound

/-- Eleven seconds after the first heartbeat the second one is queued. -/
theorem heartBeat_rate_run :
    ∃ s : State, s.history.heartBeats = [100, 111] ∧
      (HEARTBEAT + 1) * s.history.heartBeats.length ≤ s.history.clock + HEARTBEAT := by
  have hrun : (timedProbe exampleParams).EndsIn State.start
      (List.replicate 16 (Action.sender (exampleEnv 100)) ++
        List.replicate 5 (Action.sender (exampleEnv 111)))
      (fun s => s.history.heartBeats = [100, 111]) := by
    decide
  rcases Machine.exists_reachable_of_endsIn hrun with ⟨s, hs, hbeats⟩
  exact ⟨s, hbeats, (heartBeat_rate hs).2⟩

end AlertProbe
