import AlertProbe.Foundations.Channel
import AlertProbe.Pipeline.Locks

/-!
# The pipeline as a channel

Between the addons and `sendMessage` the probe is a first-in first-out channel of
rendered readings, and the SD-Element queue is a channel of its own, heartbeats
included.  Each is an abstraction of the machine: a step of any thread is a
stutter, an acceptance or a delivery of the channel.

While the format thread has appended a rendering and not yet advanced the collect
queue, the reading is in both queues; while the sender thread has called
`sendMessage` and not yet advanced the SD-Element queue, the element is sent and
still queued.  `unpushed` and `pendingSD` count such an element once.

Main results:

- Theorem `sdChannel_reachable`: the SD-Element queue refines a channel.
- Theorem `probeChannel_reachable`: the whole probe refines a channel.
- Theorem `end_to_end_fifo`: no reading is lost, duplicated or reordered.
-/

namespace AlertProbe

open Foundations

/-! ## What is under way -/

/-- Elements of the SD-Element queue that `sendMessage` has not been called for. -/
def SenderPC.pending (queue : List SDElementQueueElement) :
    SenderPC → List SDElementQueueElement
  | .advance => queue.tail
  | _ => queue

/-- Readings of the collect queue that have not been appended to the SD-Element queue. -/
def FormatPC.unpushed (queue : List CollectQueueElement) : FormatPC → List CollectQueueElement
  | .push .unlock _ | .advance => queue.tail
  | _ => queue

/-- Elements of the SD-Element queue not yet handed to `sendMessage`. -/
def State.pendingSD (s : State) : List SDElementQueueElement :=
  s.sender.pending s.sdElementQueue.first

/-- Readings of the collect queue not yet pushed to the SD-Element queue. -/
def State.unpushed (s : State) : List CollectQueueElement :=
  s.format.unpushed s.collectQueue.first

/-- Elements handed to `sendMessage`, oldest first. -/
def History.sent (history : History) : List SDElementQueueElement :=
  history.handed.map Handed.element

/-- An append at the tail of the SD-Element queue is an append to what is pending. -/
theorem SenderPC.pending_append {p : Params} {queue : List SDElementQueueElement}
    {pc : SenderPC} (h : pc.HeadOk p queue) (e : SDElementQueueElement) :
    pc.pending (queue ++ [e]) = pc.pending queue ++ [e] := by
  cases pc with
  | advance => exact List.tail_append_of_ne_nil h
  | _ => rfl

/-- An append at the tail of the collect queue is an append to what is unpushed. -/
theorem FormatPC.unpushed_append {p : Params} {queue : List CollectQueueElement}
    {pc : FormatPC} (h : pc.HeadOk p queue) (e : CollectQueueElement) :
    pc.unpushed (queue ++ [e]) = pc.unpushed queue ++ [e] := by
  cases pc with
  | advance => exact List.tail_append_of_ne_nil h
  | push pc new =>
      rcases h with ⟨head, hhead, _⟩
      cases pc with
      | unlock =>
          apply List.tail_append_of_ne_nil
          intro hnil
          simp [hnil] at hhead
      | _ => rfl
  | _ => rfl

/-! ## The SD-Element queue as a channel -/

/-- The channel from `pushSDElementQueue` to `sendMessage`. -/
def State.sdChannel (s : State) : Channel SDElementQueueElement where
  accepted := s.history.queued
  inFlight := s.pendingSD
  delivered := s.history.sent

/-- A format step is a stutter of the SD-Element channel or an acceptance. -/
theorem FormatStep.sdChannel {p : Params} {s s' : State} (hinv : HeadInv p s)
    (hs : FormatStep p s s') :
    s'.sdChannel = s.sdChannel ∨
      ∃ new, s.format = .push .append new ∧ s'.sdChannel = s.sdChannel.accept new := by
  cases hs with
  | pushAppend hpc =>
      refine Or.inr ⟨_, hpc, ?_⟩
      simp only [State.sdChannel, State.pendingSD, Channel.accept, LockedQueue.append_first,
        SenderPC.pending_append hinv.sender, History.sent]
  | _ => exact Or.inl rfl

/-- A sender step is a stutter, an acceptance or a delivery of the SD-Element channel. -/
theorem SenderStep.sdChannel {p : Params} {env : SendEnv} {s s' : State} (hinv : HeadInv p s)
    (hs : SenderStep p env s s') :
    s'.sdChannel = s.sdChannel ∨
      (Channel.machine SDElementQueueElement).Step s.sdChannel s'.sdChannel := by
  have hhead := hinv.sender
  cases hs with
  | pushAppend hpc =>
      right
      have haccept := Channel.step_accept s.sdChannel
      simp only [State.sdChannel, State.pendingSD, hpc, SenderPC.pending, Channel.accept,
        LockedQueue.append_first, History.sent] at haccept ⊢
      exact haccept _
  | sendMessage hpc hsend =>
      right
      rw [hpc] at hhead
      rcases List.head?_eq_some_iff.mp hhead with ⟨rest, hfirst⟩
      simp only [State.sdChannel, State.pendingSD, hpc, SenderPC.pending, hfirst,
        List.tail_cons, History.sent, List.map_append, List.map_cons, List.map_nil]
      exact Channel.step_deliver
  | _ =>
      left
      simp_all [State.sdChannel, State.pendingSD, SenderPC.pending, History.sent]

/-- Every step of the probe is a stutter or a step of the SD-Element channel. -/
theorem ProbeStep.sdChannel {p : Params} {s s' : State} {a : Action} (hinv : HeadInv p s)
    (hs : ProbeStep p s a s') :
    s'.sdChannel = s.sdChannel ∨
      (Channel.machine SDElementQueueElement).Step s.sdChannel s'.sdChannel := by
  cases hs with
  | addon hs => cases hs <;> exact Or.inl rfl
  | format hs =>
      rcases hs.sdChannel hinv with hstutter | ⟨new, _, haccept⟩
      · exact Or.inl hstutter
      · rw [haccept]
        exact Or.inr (Channel.step_accept _ _)
  | sender hs => exact hs.sdChannel hinv
  | _ => exact Or.inl rfl

/-- The SD-Element queue refines a first-in first-out channel. -/
theorem sdChannel_reachable {p : Params} {s : State} (h : (probe p).Reachable s) :
    (Channel.machine SDElementQueueElement).Reachable s.sdChannel := by
  apply h.map State.sdChannel rfl
  intro s a s' hs hstep
  exact (step_cases hstep).sdChannel (headInv_of_reachable hs)

/-- What was sent and what is pending is what was queued. -/
theorem sent_append_pendingSD {p : Params} {s : State} (h : (probe p).Reachable s) :
    s.history.sent ++ s.pendingSD = s.history.queued :=
  Channel.conserved (sdChannel_reachable h)

/-! ## The probe as a channel -/

/-- The channel from the addons to `sendMessage`, less the heartbeats. -/
def State.probeChannel (p : Params) (s : State) : Channel SDElementQueueElement where
  accepted := s.history.pushed.map (render p.glib p.header)
  inFlight := s.pendingSD.filter SDElementQueueElement.isData ++
    s.unpushed.map (render p.glib p.header)
  delivered := s.history.sent.filter SDElementQueueElement.isData

/-- An addon step is a stutter or an acceptance of the rendered reading. -/
theorem AddonStep.probeChannel {p : Params} {i : Nat} {e : CollectQueueElement} {s s' : State}
    (hinv : HeadInv p s) (hs : AddonStep i e s s') :
    s'.probeChannel p = s.probeChannel p ∨
      s'.probeChannel p = (s.probeChannel p).accept (render p.glib p.header e) := by
  cases hs with
  | append hpc =>
      right
      simp only [State.probeChannel, State.pendingSD, State.unpushed, Channel.accept,
        LockedQueue.append_first, FormatPC.unpushed_append hinv.format, History.sent,
        List.map_append, List.map_cons, List.map_nil, List.append_assoc]
  | _ => exact Or.inl rfl

/-- A format step moves a rendering within the channel at most. -/
theorem FormatStep.probeChannel {p : Params} {s s' : State} (hinv : HeadInv p s)
    (hs : FormatStep p s s') : s'.probeChannel p = s.probeChannel p := by
  have hhead := hinv.format
  cases hs with
  | pushAppend hpc =>
      rw [hpc] at hhead
      rcases hhead with ⟨e, hfirst, rfl⟩
      rcases List.head?_eq_some_iff.mp hfirst with ⟨rest, hcollect⟩
      simp [State.probeChannel, State.pendingSD, State.unpushed, FormatPC.unpushed, hpc,
        hcollect, SenderPC.pending_append hinv.sender, History.sent]
  | _ =>
      simp_all [State.probeChannel, State.pendingSD, State.unpushed, FormatPC.unpushed,
        History.sent]

/-- A sender step is a stutter or a delivery; heartbeats pass unseen. -/
theorem SenderStep.probeChannel {p : Params} {env : SendEnv} {s s' : State}
    (hinv : HeadInv p s) (hs : SenderStep p env s s') :
    s'.probeChannel p = s.probeChannel p ∨
      (Channel.machine SDElementQueueElement).Step (s.probeChannel p) (s'.probeChannel p) := by
  have hhead := hinv.sender
  cases hs with
  | pushAppend hpc =>
      left
      rw [hpc] at hhead
      simp [State.probeChannel, State.pendingSD, State.unpushed, SenderPC.pending, hpc,
        History.sent, show _ = renderHeartBeat _ _ from hhead]
  | @sendMessage e result hpc hsend =>
      rw [hpc] at hhead
      rcases List.head?_eq_some_iff.mp hhead with ⟨rest, hfirst⟩
      by_cases hdata : e.isData = true
      · right
        simp only [State.probeChannel, State.pendingSD, State.unpushed, SenderPC.pending, hpc,
          hfirst, List.tail_cons, History.sent, List.map_append, List.map_cons, List.map_nil,
          List.filter_append, List.filter_cons_of_pos hdata, List.filter_nil, List.cons_append]
        exact Channel.step_deliver
      · left
        simp only [State.probeChannel, State.pendingSD, State.unpushed, SenderPC.pending, hpc,
          hfirst, List.tail_cons, History.sent, List.map_append, List.map_cons, List.map_nil,
          List.filter_append, List.filter_cons_of_neg hdata, List.filter_nil, List.append_nil]
  | _ =>
      left
      simp_all [State.probeChannel, State.pendingSD, State.unpushed, SenderPC.pending,
        History.sent]

/-- The probe refines a first-in first-out channel of rendered readings. -/
theorem probeChannel_reachable {p : Params} {s : State} (h : (probe p).Reachable s) :
    (Channel.machine SDElementQueueElement).Reachable (s.probeChannel p) := by
  apply h.map (State.probeChannel p) rfl
  intro s a s' hs hstep
  have hinv := headInv_of_reachable hs
  cases step_cases hstep with
  | addon hs =>
      rcases hs.probeChannel hinv with hstutter | haccept
      · exact Or.inl hstutter
      · rw [haccept]
        exact Or.inr (Channel.step_accept _ _)
  | format hs => exact Or.inl (hs.probeChannel hinv)
  | sender hs => exact hs.probeChannel hinv
  | _ => exact Or.inl rfl

/-- What was sent or is pending, heartbeats aside, and the renderings of what is unpushed are
the renderings of all readings ever collected. -/
theorem readings_conserved {p : Params} {s : State} (h : (probe p).Reachable s) :
    (s.history.sent ++ s.pendingSD).filter SDElementQueueElement.isData ++
        s.unpushed.map (render p.glib p.header) =
      s.history.pushed.map (render p.glib p.header) := by
  have hconserved := Channel.conserved (probeChannel_reachable h)
  simp only [State.probeChannel] at hconserved
  rw [List.filter_append, List.append_assoc]
  exact hconserved

/-- What was handed over, heartbeats aside, are the renderings of the first readings. -/
theorem sent_initial {p : Params} {s : State} (h : (probe p).Reachable s) :
    s.history.sent.filter SDElementQueueElement.isData <+:
      s.history.pushed.map (render p.glib p.header) :=
  Channel.delivered_prefix (probeChannel_reachable h)

/-- End-to-end order: in every reachable state the elements handed to `sendMessage`, then the
pending elements of the SD-Element queue, heartbeats aside, then the renderings of the
readings that are not yet pushed, are the renderings of all readings ever collected, each
with its collect time.  So what was handed over is a prefix of what was collected. -/
theorem end_to_end_fifo {p : Params} {s : State} (h : (probe p).Reachable s) :
    (s.history.sent ++ s.pendingSD).filter SDElementQueueElement.isData ++
        s.unpushed.map (render p.glib p.header) =
      s.history.pushed.map (render p.glib p.header) ∧
    ((s.history.sent ++ s.pendingSD).filter SDElementQueueElement.isData).map
        SDElementQueueElement.time ++ s.unpushed.map CollectQueueElement.time =
      s.history.pushed.map CollectQueueElement.time ∧
    s.history.sent.filter SDElementQueueElement.isData <+:
      s.history.pushed.map (render p.glib p.header) := by
  have hall := readings_conserved h
  refine ⟨hall, ?_, Channel.delivered_prefix (probeChannel_reachable h)⟩
  have htimes := congrArg (List.map SDElementQueueElement.time) hall
  simpa [Function.comp_def] using htimes

/-- A run in which one reading is collected, formatted and handed over. -/
theorem end_to_end_fifo_run :
    ∃ s : State, (s.history.handed.length = 1 ∧ s.history.pushed = [exampleReading]) ∧
      (s.history.sent ++ s.pendingSD).filter SDElementQueueElement.isData ++
          s.unpushed.map (render exampleGLib exampleHeader) =
        s.history.pushed.map (render exampleGLib exampleHeader) := by
  have hrun : (probe exampleParams).EndsIn State.start
      (List.replicate 3 (Action.addon 0 exampleReading) ++ List.replicate 11 Action.format ++
        List.replicate 12 (Action.sender (exampleEnv 100)))
      (fun s => s.history.handed.length = 1 ∧ s.history.pushed = [exampleReading]) := by
    decide
  rcases Machine.exists_reachable_of_endsIn hrun with ⟨s, hs, hpassed⟩
  exact ⟨s, hpassed, (end_to_end_fifo hs).1⟩

end AlertProbe
