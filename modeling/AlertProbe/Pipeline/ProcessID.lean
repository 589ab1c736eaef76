import AlertProbe.Model.Daemon
import AlertProbe.Pipeline.Fifo

/-!
# Process IDs

The messages and the log lines show the pid that `getpid` returned in the
initialisers of `main`.  The release build forks twice behind them, so the daemon
is another process, unless the system gives it the pid that the process which
entered `main` had, once that one is gone.

Main results:

- Theorem `handed_header`: every message shows the header of its queue.
- Theorem `pidsAgree_iff`: when the recorded pids are the daemon's.
- Theorem `daemon_pids_iff`: the same for the incarnations of a run.
- Theorem `message_shows_stale_pid`: a message with another pid.
-/

namespace AlertProbe

open Foundations

/-! ## Headers of messages -/

/-- The texts of the element come from the header of the queue. -/
def SDElementQueueElement.HasHeader (header : SDElementHeader) (e : SDElementQueueElement) :
    Prop :=
  e.beforeMsgID = beforeMsgIDText header ∧ e.afterMsgID = afterMsgIDText header

/-- Every step of the probe queues elements with the header of the queue. -/
theorem ProbeStep.queued_header {p : Params} {s s' : State} {a : Action}
    (hhead : HeadInv p s) (h : ∀ e ∈ s.history.queued, e.HasHeader p.header)
    (hs : ProbeStep p s a s') : ∀ e ∈ s'.history.queued, e.HasHeader p.header := by
  cases hs with
  | addon hs => cases hs <;> exact h
  | format hs =>
      have hformat := hhead.format
      cases hs with
      | pushAppend hpc =>
          rw [hpc] at hformat
          rcases hformat with ⟨reading, _, rfl⟩
          intro e he
          rcases List.mem_append.mp he with hold | hnew
          · exact h e hold
          · rw [List.mem_singleton.mp hnew]
            exact ⟨rfl, rfl⟩
      | _ => exact h
  | sender hs =>
      have hsender := hhead.sender
      cases hs with
      | @pushAppend new t hpc =>
          rw [hpc] at hsender
          change new = renderHeartBeat p.header t at hsender
          intro e he
          rcases List.mem_append.mp he with hold | hnew
          · exact h e hold
          · rw [List.mem_singleton.mp hnew, hsender]
            exact ⟨rfl, rfl⟩
      | _ => exact h
  | _ => exact h

/-- Every element handed over has the header of the queue. -/
theorem handed_header {p : Params} {s : State} (h : (probe p).Reachable s) :
    ∀ handed ∈ s.history.handed, handed.element.HasHeader p.header := by
  have hqueued : ∀ e ∈ s.history.queued, e.HasHeader p.header := by
    apply h.invariant' (P := fun s => ∀ e ∈ s.history.queued, e.HasHeader p.header)
    · intro e he
      cases he
    · intro s a s' hs hinv hstep
      exact (step_cases hstep).queued_header (headInv_of_reachable hs) hinv
  intro handed hmem
  apply hqueued
  rw [← sent_append_pendingSD h]
  exact List.mem_append_left _ (List.mem_map_of_mem hmem)

/-! ## The pids of an incarnation -/

/-- Every pid that the incarnation shows is the pid of the daemon: the one in its queue, the
one in every message that it sends, the one in its log lines and the one in the pid file. -/
structure PidsAgree (started : Started) : Prop where
  queue : started.sdElementQueue.pID = started.pid
  messages : ∀ glib s,
    (probe ⟨glib, started.sdElementQueue, started.senderParams⟩).Reachable s →
      ∀ handed ∈ s.history.handed,
        handed.element.beforeMsgID =
          beforeMsgIDText { started.sdElementQueue with pID := started.pid }
  log : started.logPId = started.pid
  pidFile : ∀ written, started.pidFile = some written → written = started.pid

/-- If the queue has the daemon's pid, then so have the messages. -/
theorem messages_of_queue {started : Started}
    (h : started.sdElementQueue.pID = started.pid) (glib : GLib) (s : State)
    (hs : (probe ⟨glib, started.sdElementQueue, started.senderParams⟩).Reachable s) :
    ∀ handed ∈ s.history.handed,
      handed.element.beforeMsgID =
        beforeMsgIDText { started.sdElementQueue with pID := started.pid } := by
  intro handed hmem
  have hheader : { started.sdElementQueue with pID := started.pid } =
      started.sdElementQueue := by
    rw [← h]
  rw [hheader]
  exact (handed_header hs handed hmem).1

/-- The recorded pids are the daemon's exactly when the daemon has the pid of the process that
entered `main`. -/
theorem pidsAgree_iff {build : Build} {argc : Nat} {pid : Int32} {env : MainEnv}
    {started : Started} (h : main build argc pid env = .ok started) :
    PidsAgree started ↔ started.pid = pid := by
  rcases main_eq_ok h with ⟨_, hqueue, hlog, hpidFile⟩
  constructor
  · intro hagree
    rw [← hagree.queue, hqueue]
  · intro hsame
    have hqueue' : started.sdElementQueue.pID = started.pid := by rw [hqueue, hsame]
    refine ⟨hqueue', messages_of_queue hqueue', by rw [hlog, hsame], ?_⟩
    intro written hwritten
    rw [hpidFile] at hwritten
    exact eq_of_writePidFile hwritten

/-- In the debug build, which does not fork, all pids agree. -/
theorem pidsAgree_debug {argc : Nat} {pid : Int32} {env : MainEnv} {started : Started}
    (h : main .debug argc pid env = .ok started) : PidsAgree started := by
  apply (pidsAgree_iff h).mpr
  rcases main_eq_ok h with ⟨hdaemonize, _⟩
  rw [daemonize_debug] at hdaemonize
  cases hdaemonize
  rfl

/-! ## Runs -/

/-- If the action starts an incarnation, the second `fork` returns the pid of the process that
entered `main`. -/
def reusesPid (s : DaemonState) (a : DaemonAction) : Bool :=
  match s, a with
  | .entering pid, .start env => env.fork2 == some pid
  | _, _ => true

/-- The pids that an incarnation of the release build shows are the daemon's exactly when the
second `fork` returned the pid of the process that entered `main`.  In every run, restarts
included, in which it always does, they are the daemon's in every incarnation. -/
theorem daemon_pids_iff (argc : Nat) :
    (∀ pid env started, main .release argc pid env = .ok started →
      (PidsAgree started ↔ env.fork2 = some pid)) ∧
    (∀ pid started, ((daemon .release argc pid).restrict
        fun s a => reusesPid s a = true).Reachable (.serving started) →
      PidsAgree started) := by
  have hmain : ∀ pid env started, main .release argc pid env = .ok started →
      (PidsAgree started ↔ env.fork2 = some pid) := by
    intro pid env started h
    rw [pidsAgree_iff h, daemonize_release (main_eq_ok h).1, Option.some.injEq]
  refine ⟨hmain, ?_⟩
  intro pid started h
  have hall : ∀ served, DaemonState.serving started = .serving served → PidsAgree served := by
    apply h.invariant (P := fun s => ∀ served, s = .serving served → PidsAgree served)
    · intro served hserved
      cases hserved
    · intro s a s' _ hstep served hserved
      rcases Machine.restrict_step_eq_next.mp hstep with ⟨hreuses, hstep⟩
      subst hserved
      rcases daemonStep_serving hstep with ⟨entered, env, rfl, rfl, hstarted⟩
      exact (hmain entered env served hstarted).mpr (beq_iff_eq.mp hreuses)
  exact hall started rfl

/-- What an incarnation entered by process 100 serves with when its children get the given
pids. -/
def exampleStarted (fork2 : Int32) : Started where
  logPId := 100
  sdElementQueue := { exampleHeader with pID := 100 }
  senderParams := exampleParams.sender
  pid := fork2
  pidFile := some fork2

/-- Process 100 enters `main`, its child 101 forks once 100 is gone, and the grandchild gets
the pid 100 again; the daemon is restarted and gets it once more. -/
theorem daemon_pids_iff_run :
    main .release 1 100 (exampleMainEnv 101 100) = .ok (exampleStarted 100) ∧
      (PidsAgree (exampleStarted 100) ↔ (exampleMainEnv 101 100).fork2 = some 100) ∧
      PidsAgree (exampleStarted 100) := by
  have hmain : main .release 1 100 (exampleMainEnv 101 100) = .ok (exampleStarted 100) := rfl
  have hrun : ((daemon .release 1 100).restrict fun s a => reusesPid s a = true).EndsIn
      (.entering 100)
      [.start (exampleMainEnv 101 100), .stop SIGHUP [true], .start (exampleMainEnv 101 100)]
      (fun s => s = .serving (exampleStarted 100)) := by
    decide
  rcases Machine.exists_reachable_of_endsIn hrun with ⟨s, hs, rfl⟩
  exact ⟨hmain, (daemon_pids_iff 1).1 100 _ _ hmain, (daemon_pids_iff 1).2 100 _ hs⟩

/-- Process 100 enters `main` and the daemon is process 102, as its pid file says; the message
of its first heartbeat shows 100. -/
theorem message_shows_stale_pid :
    (daemon .release 1 100).Reachable (.serving (exampleStarted 102)) ∧
      (exampleStarted 102).pidFile = some 102 ∧
      (∃ s, (probe ⟨exampleGLib, (exampleStarted 102).sdElementQueue,
            (exampleStarted 102).senderParams⟩).Reachable s ∧
          s.history.handed.map (fun handed => handed.element.beforeMsgID) =
            [ascii "127.0.0.1 ea-probe 100 ID"]) ∧
      ¬ PidsAgree (exampleStarted 102) := by
  have hstart : (daemon .release 1 100).EndsIn (.entering 100)
      [.start (exampleMainEnv 101 102)] (fun s => s = .serving (exampleStarted 102)) := by
    decide
  have hrun : (probe ⟨exampleGLib, (exampleStarted 102).sdElementQueue,
      (exampleStarted 102).senderParams⟩).EndsIn State.start
      (List.replicate 11 (Action.sender (exampleEnv 100)))
      (fun s => s.history.handed.map (fun handed => handed.element.beforeMsgID) =
        [ascii "127.0.0.1 ea-probe 100 ID"]) := by
    decide
  refine ⟨?_, rfl, Machine.exists_reachable_of_endsIn hrun, ?_⟩
  · rcases Machine.exists_reachable_of_endsIn hstart with ⟨s, hs, rfl⟩
    exact hs
  · intro hagree
    exact absurd hagree.queue (by decide)

end AlertProbe
