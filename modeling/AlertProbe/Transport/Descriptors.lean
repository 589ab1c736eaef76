import AlertProbe.Foundations.TransitionSystem
import AlertProbe.Transport.Paths

/-!
# Open sockets

A socket is opened in `initConnection` and closed in `endConnection`; a connection
of GLib is closed with its last reference.  A datagram that `sendto` refuses makes
`sendMessage` return between the two, and the socket stays open.

Main results:

- Theorem `SendPath.after_eq_iff`: when a way through `sendMessage` closes what it has
  opened.
- Theorem `open_sockets_kept_iff`: the same for every call, and for every run.
- Theorem `refused_datagrams_leak`: two refused datagrams leave two open sockets.
-/

namespace AlertProbe

open Foundations

/-- What the process holds open: descriptors that `socket` returned, and connections of
GLib. -/
structure OpenSockets where
  sockets : Finset Int
  connections : Nat
deriving DecidableEq

namespace OpenSockets

/-- What a call opens or closes.  A `close` that fails has released its descriptor, too. -/
def call (env : SendEnv) (opened : OpenSockets) : TransportCall → OpenSockets
  | .connectToUri _ _ =>
      if env.connected then { opened with connections := opened.connections + 1 } else opened
  | .unrefConnection => { opened with connections := opened.connections - 1 }
  | .socket _ =>
      if env.sock = INVALID_SOCKET then opened
      else { opened with sockets := insert env.sock opened.sockets }
  | .closesocket sock => { opened with sockets := opened.sockets.erase sock }
  | _ => opened

/-- What is open after a list of calls. -/
def after (env : SendEnv) (opened : OpenSockets) (calls : List TransportCall) : OpenSockets :=
  calls.foldl (call env) opened

/-- Closing the descriptor that was just opened restores what was open. -/
theorem erase_insert {opened : OpenSockets} {sock : Int} (hfresh : sock ∉ opened.sockets) :
    ({ opened with sockets := (insert sock opened.sockets).erase sock } : OpenSockets) =
      opened := by
  rw [Finset.erase_insert hfresh]

/-- A descriptor that was just opened is one more than before. -/
theorem insert_ne {opened : OpenSockets} {sock : Int} (hfresh : sock ∉ opened.sockets) :
    ({ opened with sockets := insert sock opened.sockets } : OpenSockets) ≠ opened := by
  intro heq
  apply hfresh
  rw [← congrArg sockets heq]
  exact Finset.mem_insert_self sock opened.sockets

end OpenSockets

/-- The call opens no socket, or reaches the point where it is closed. -/
def SendEnv.closesSocket (env : SendEnv) (protocol : UInt8) : Bool :=
  protocol == 0 || !env.hostFound || env.sock == INVALID_SOCKET || decide (0 ≤ env.sendto)

/-- A way through `sendMessage` leaves open what was open before, exactly when it opens no
socket or `sendto` succeeds. -/
theorem SendPath.after_eq_iff {params : SenderParams} {message : CString} {env : SendEnv}
    {result : SendResult} {opened : OpenSockets} (hfresh : env.sock ∉ opened.sockets)
    (h : SendPath params message env result) :
    opened.after env result.calls = opened ↔ env.closesSocket params.protocol = true := by
  -- both ways that end with a close leave nothing behind
  have hclosed : opened.after env
      [.gethostbyname params.address, .socket params.socketType,
        .sendto env.sock message params.port, .closesocket env.sock] = opened := by
    by_cases hsock : env.sock = INVALID_SOCKET
    · have herase : opened.sockets.erase env.sock = opened.sockets :=
        Finset.erase_eq_of_notMem hfresh
      simp only [OpenSockets.after, List.foldl_cons, List.foldl_nil, OpenSockets.call, hsock,
        if_true]
      rw [← hsock, herase]
    · simp only [OpenSockets.after, List.foldl_cons, List.foldl_nil, OpenSockets.call, hsock,
        if_false]
      exact OpenSockets.erase_insert hfresh
  have htls : params.protocol = 0 → env.closesSocket params.protocol = true := by
    intro hprotocol
    simp [SendEnv.closesSocket, hprotocol]
  have hinvalid : env.sock = INVALID_SOCKET → env.closesSocket params.protocol = true := by
    intro hsock
    simp [SendEnv.closesSocket, hsock]
  have hsent : 0 ≤ env.sendto → env.closesSocket params.protocol = true := by
    intro hsendto
    simp [SendEnv.closesSocket, hsendto]
  cases h with
  | refused hprotocol _ hconnected =>
      refine iff_of_true ?_ (htls hprotocol)
      simp [OpenSockets.after, OpenSockets.call, hconnected]
  | writeFailed hprotocol _ hconnected _ =>
      refine iff_of_true ?_ (htls hprotocol)
      simp [OpenSockets.after, OpenSockets.call, hconnected]
  | written hprotocol _ hconnected _ =>
      refine iff_of_true ?_ (htls hprotocol)
      simp [OpenSockets.after, OpenSockets.call, hconnected]
  | unknownHost hprotocol hhost =>
      have hcloses : env.closesSocket params.protocol = true := by
        simp [SendEnv.closesSocket, hhost]
      refine iff_of_true ?_ hcloses
      simp [OpenSockets.after, OpenSockets.call]
  | noSocket hprotocol hhost hsock _ =>
      refine iff_of_true ?_ (hinvalid hsock)
      simp [OpenSockets.after, OpenSockets.call, hsock]
  | sendtoFailed hprotocol hhost _ hsendto =>
      -- the only way on which a socket is opened and not closed
      by_cases hsock : env.sock = INVALID_SOCKET
      · refine iff_of_true ?_ (hinvalid hsock)
        simp [OpenSockets.after, OpenSockets.call, hsock]
      · have hcloses : ¬ env.closesSocket params.protocol = true := by
          simp [SendEnv.closesSocket, hprotocol, hhost, hsock, hsendto]
        refine iff_of_false ?_ hcloses
        simp only [OpenSockets.after, List.foldl_cons, List.foldl_nil, OpenSockets.call, hsock,
          if_false]
        exact OpenSockets.insert_ne hfresh
  | closeFailed _ _ _ hsendto _ _ => exact iff_of_true hclosed (hsent hsendto)
  | sent _ _ _ hsendto _ => exact iff_of_true hclosed (hsent hsendto)

/-! ## Sequences of calls -/

/-- The arguments of one call of `sendMessage` and the results of the calls it makes. -/
structure SendCall where
  params : SenderParams
  element : SDElementQueueElement
  msgID : UInt16
  env : SendEnv
deriving DecidableEq

/-- A process that calls `sendMessage` again and again.  `socket` returns no open
descriptor. -/
def sendingProcess (glib : GLib) : Machine OpenSockets SendCall where
  initial := ⟨∅, 0⟩
  step opened c :=
    if c.env.sock ∈ opened.sockets then .blocked
    else
      match sendMessage glib c.params c.element c.msgID c.env with
      | none => .undefined
      | some result => .next (opened.after c.env result.calls)

/-- What one call of the process does. -/
theorem sendingProcess_step {glib : GLib} {opened opened' : OpenSockets} {c : SendCall}
    (h : (sendingProcess glib).step opened c = .next opened') :
    c.env.sock ∉ opened.sockets ∧
      ∃ result, sendMessage glib c.params c.element c.msgID c.env = some result ∧
        opened' = opened.after c.env result.calls := by
  simp only [sendingProcess] at h
  split at h
  · cases h
  · rename_i hfresh
    split at h
    · cases h
    · rename_i result hresult
      cases h
      exact ⟨hfresh, result, hresult, rfl⟩

/-- For every call, what is open after it is what was open before, exactly when it opens no
socket or `sendto` succeeds.  In every run whose calls all do so, nothing is left open. -/
theorem open_sockets_kept_iff (glib : GLib) :
    (∀ (params : SenderParams) (element : SDElementQueueElement) (msgID : UInt16)
      (env : SendEnv) (result : SendResult) (opened : OpenSockets),
      env.sock ∉ opened.sockets →
        sendMessage glib params element msgID env = some result →
          (opened.after env result.calls = opened ↔
            env.closesSocket params.protocol = true)) ∧
    (∀ s t : OpenSockets,
      ((sendingProcess glib).restrict
        fun _ c => c.env.closesSocket c.params.protocol = true).ReachableFrom s t → t = s) := by
  have hcall : ∀ (params : SenderParams) (element : SDElementQueueElement) (msgID : UInt16)
      (env : SendEnv) (result : SendResult) (opened : OpenSockets),
      env.sock ∉ opened.sockets →
        sendMessage glib params element msgID env = some result →
          (opened.after env result.calls = opened ↔
            env.closesSocket params.protocol = true) := by
    intro params element msgID env result opened hfresh h
    obtain ⟨_, _, hpath⟩ := sendMessage_path h
    exact hpath.after_eq_iff hfresh
  refine ⟨hcall, ?_⟩
  intro s t hrun
  apply hrun.invariant (P := fun t => t = s) rfl
  intro opened c opened' hopened hstep
  obtain ⟨hcloses, hstep⟩ := Machine.restrict_step_eq_next.mp hstep
  obtain ⟨hfresh, result, hresult, rfl⟩ := sendingProcess_step hstep
  rw [(hcall _ _ _ _ _ _ hfresh hresult).mpr hcloses]
  exact hopened

/-- The first reading of the unit tests is sent as a datagram. -/
def exampleCall (env : SendEnv) : SendCall :=
  ⟨exampleSender 1, render exampleGLib exampleHeader exampleReading, 1, env⟩

/-- `socket` returns the given descriptor and `sendto` fails. -/
def refusedDatagramEnv (sock : Int) : SendEnv :=
  { exampleEnv 100 with sock := sock, sendto := -1, errnoSendto := 101 }

/-- A datagram that is sent leaves open what was open before. -/
theorem open_sockets_kept_iff_datagram :
    ∃ result,
      sendMessage exampleGLib (exampleSender 1) (render exampleGLib exampleHeader exampleReading)
        1 (exampleEnv 100) = some result ∧
      OpenSockets.after (exampleEnv 100) ⟨{7}, 0⟩ result.calls = ⟨{7}, 0⟩ := by
  refine ⟨_, rfl, ?_⟩
  exact ((open_sockets_kept_iff exampleGLib).1 (exampleSender 1)
    (render exampleGLib exampleHeader exampleReading) 1 (exampleEnv 100) _ ⟨{7}, 0⟩
    (by decide) rfl).mpr (by decide)

/-- Two datagrams that `sendto` refuses leave two sockets open. -/
theorem refused_datagrams_leak :
    ∃ t : OpenSockets, (sendingProcess exampleGLib).Reachable t ∧ t.sockets = {3, 4} ∧
      t ≠ (sendingProcess exampleGLib).initial := by
  have hrun : (sendingProcess exampleGLib).EndsIn (sendingProcess exampleGLib).initial
      [exampleCall (refusedDatagramEnv 3), exampleCall (refusedDatagramEnv 4)]
      (fun t => t.sockets = {3, 4} ∧ t ≠ (sendingProcess exampleGLib).initial) := by
    decide
  obtain ⟨t, ht, hsockets, hne⟩ := Machine.exists_reachable_of_endsIn hrun
  exact ⟨t, ht, hsockets, hne⟩

end AlertProbe
