import AlertProbe.Transport.Paths

/-!
# The exit status of sendMessage

The TLS branch reports failures through a `GError`, the socket branch through
`errno`.  Neither branch looks at the number of bytes that the transport took, and
`gethostbyname` reports its failures through `h_errno`, so the `errno` that
`sendMessage` returns behind it can be zero.

Main results:

- Theorem `SendPath.statusTruthful_iff`: when the exit status of a way through
  `sendMessage` tells the truth.
- Theorem `sendMessage_status_truthful_iff`: the same for every call.
- Theorem `success_without_delivery`: an unknown host and a short write that both
  count as success.
-/

namespace AlertProbe

open Foundations

/-! ## What the transport did -/

/-- The call failed: resolution, creation of the socket, connection or sending. -/
def SendEnv.failed (env : SendEnv) : TransportCall → Bool
  | .connectToUri _ _ => !env.connected
  | .write _ => env.written.isNone
  | .gethostbyname _ => !env.hostFound
  | .socket _ => env.sock == INVALID_SOCKET
  | .connect _ _ => env.connect == SOCKET_ERROR
  | .sendto _ _ _ => env.sendto < 0
  | .unrefConnection => false
  | .closesocket _ => false

/-- Number of bytes that the transport took from the call. -/
def SendEnv.accepted (env : SendEnv) : TransportCall → Nat
  | .write _ => env.written.getD 0
  | .sendto _ _ _ => env.sendto.toNat
  | _ => 0

/-- `EXIT_SUCCESS` is returned only if the transport took the whole message, and not after
any failed call. -/
structure StatusTruthful (message : CString) (env : SendEnv) (result : SendResult) : Prop where
  delivered : result.status = exitSuccess →
    ∃ call ∈ result.calls, call.payload = some message ∧ env.accepted call = message.length
  failure : ∀ call ∈ result.calls, env.failed call = true → result.status ≠ exitSuccess

/-- Documented behaviour of `errno`: `socket` and `sendto` set it when they fail, and no call
sets it back to zero.  `gethostbyname` need not set it. -/
structure SendEnv.ErrnoDocumented (env : SendEnv) : Prop where
  socket : env.hostFound = true → env.sock = INVALID_SOCKET →
    env.errnoSocket ≠ 0 ∧ env.errnoInitConnection ≠ 0
  sendto : env.sendto < 0 → env.errnoSendto ≠ 0
  closesocket : env.closesocket ≠ 0 → env.errnoClosesocket ≠ 0 → env.errnoEndConnection ≠ 0

/-- The results of the calls under which the exit status tells the truth about a message of
`length` bytes: no short write counts as success, and an unknown host leaves an `errno`. -/
def SendEnv.truthful (env : SendEnv) (protocol : UInt8) (length : Nat) : Bool :=
  if protocol = 0 then
    !env.connected || env.written.isNone || env.written == some length
  else if env.hostFound = false then env.errnoInitConnection != 0
  else
    env.sock == INVALID_SOCKET || decide (env.sendto < 0) ||
      (env.closesocket != 0 && env.errnoClosesocket != 0) || env.sendto == length

/-! ## The eight ways -/

/-- An exit with a status other than zero tells the truth. -/
theorem StatusTruthful.of_failure {message : CString} {env : SendEnv} {result : SendResult}
    (h : result.status ≠ exitSuccess) : StatusTruthful message env result where
  delivered := fun hsuccess => absurd hsuccess h
  failure := fun _ _ _ => h

/-- An exit with status zero behind a failed call does not. -/
theorem StatusTruthful.not_of_failed {message : CString} {env : SendEnv} {result : SendResult}
    {call : TransportCall} (hcall : call ∈ result.calls) (hfailed : env.failed call = true)
    (hsuccess : result.status = exitSuccess) : ¬ StatusTruthful message env result :=
  fun h => h.failure call hcall hfailed hsuccess

/-- Where no call failed, an exit with status zero tells the truth if the transport took the
whole message. -/
theorem StatusTruthful.iff_delivered {message : CString} {env : SendEnv} {result : SendResult}
    (hsuccess : result.status = exitSuccess)
    (hfailed : ∀ call ∈ result.calls, env.failed call = false) :
    StatusTruthful message env result ↔
      ∃ call ∈ result.calls, call.payload = some message ∧ env.accepted call = message.length := by
  constructor
  · intro h
    exact h.delivered hsuccess
  · intro hdelivered
    refine ⟨fun _ => hdelivered, ?_⟩
    intro call hcall hfailure
    rw [hfailed call hcall] at hfailure
    cases hfailure

/-- The exit status tells the truth exactly under the results of the calls listed in
`SendEnv.truthful`. -/
theorem SendPath.statusTruthful_iff {params : SenderParams} {message : CString} {env : SendEnv}
    {result : SendResult} (henv : env.ErrnoDocumented)
    (h : SendPath params message env result) :
    StatusTruthful message env result ↔ env.truthful params.protocol message.length = true := by
  have hfailure : exitFailure ≠ exitSuccess := by decide
  cases h with
  | refused hprotocol _ hconnected =>
      have htruthful : env.truthful params.protocol message.length = true := by
        simp [SendEnv.truthful, hprotocol, hconnected]
      exact iff_of_true (.of_failure hfailure) htruthful
  | writeFailed hprotocol _ _ hwritten =>
      have htruthful : env.truthful params.protocol message.length = true := by
        simp [SendEnv.truthful, hprotocol, hwritten]
      exact iff_of_true (.of_failure hfailure) htruthful
  | @written uri n hprotocol _ hconnected hwritten =>
      have htruthful : env.truthful params.protocol message.length = true ↔
          n = message.length := by
        simp [SendEnv.truthful, hprotocol, hconnected, hwritten]
      rw [htruthful, StatusTruthful.iff_delivered rfl]
      · simp [TransportCall.payload, SendEnv.accepted, hwritten]
      · simp [SendEnv.failed, hconnected, hwritten]
  | unknownHost hprotocol hhost =>
      have htruthful : env.truthful params.protocol message.length = true ↔
          env.errnoInitConnection ≠ 0 := by
        simp [SendEnv.truthful, hprotocol, hhost]
      rw [htruthful]
      constructor
      · intro h herrno
        have hfailed : env.failed (.gethostbyname params.address) = true := by
          simp [SendEnv.failed, hhost]
        exact StatusTruthful.not_of_failed (.head _) hfailed herrno h
      · intro herrno
        exact .of_failure herrno
  | noSocket hprotocol hhost hsock _ =>
      have htruthful : env.truthful params.protocol message.length = true := by
        simp [SendEnv.truthful, hprotocol, hhost, hsock]
      exact iff_of_true (.of_failure (henv.socket hhost hsock).2) htruthful
  | sendtoFailed hprotocol hhost _ hsendto =>
      have htruthful : env.truthful params.protocol message.length = true := by
        simp [SendEnv.truthful, hprotocol, hhost, hsendto]
      exact iff_of_true (.of_failure (henv.sendto hsendto)) htruthful
  | closeFailed hprotocol hhost _ _ hclose herrno =>
      have htruthful : env.truthful params.protocol message.length = true := by
        simp [SendEnv.truthful, hprotocol, hhost, hclose, herrno]
      exact iff_of_true (.of_failure (henv.closesocket hclose herrno)) htruthful
  | sent hprotocol hhost hopen hsendto hclose =>
      have hsock : env.sock ≠ INVALID_SOCKET := by
        intro hinvalid
        exact (henv.socket hhost hinvalid).1 (hopen hinvalid)
      have hclosed : env.closesocket ≠ 0 → env.errnoClosesocket = 0 := by
        intro hfailed
        exact hclose.resolve_left hfailed
      have htruthful : env.truthful params.protocol message.length = true ↔
          env.sendto = message.length := by
        simp only [SendEnv.truthful, hprotocol, hhost, not_lt.mpr hsendto, if_false,
          Bool.true_eq_false, beq_eq_false_iff_ne.mpr hsock, decide_false, Bool.false_or,
          Bool.or_eq_true, Bool.and_eq_true, bne_iff_ne, ne_eq, beq_iff_eq]
        constructor
        · rintro (⟨hfailed, herrno⟩ | hlength)
          · exact absurd (hclosed hfailed) herrno
          · exact hlength
        · exact Or.inr
      rw [htruthful, StatusTruthful.iff_delivered rfl]
      · simp only [List.mem_cons, List.not_mem_nil, or_false, exists_eq_or_imp, exists_eq_left,
          TransportCall.payload, SendEnv.accepted, reduceCtorEq, false_and, true_and, false_or,
          or_false]
        omega
      · simp [SendEnv.failed, hhost, hsock, hsendto]

/-- For every protocol, address, message and result of the calls: `EXIT_SUCCESS` is returned
only if the transport took the whole message, and not after a failed call, exactly when no
short write counts as success and an unknown host leaves an `errno`. -/
theorem sendMessage_status_truthful_iff {glib : GLib} {params : SenderParams}
    {element : SDElementQueueElement} {msgID : UInt16} {env : SendEnv} {result : SendResult}
    (henv : env.ErrnoDocumented)
    (h : sendMessage glib params element msgID env = some result) :
    ∃ offset, messageOffset env.now element.time = some offset ∧
      (StatusTruthful (completMsg glib element msgID env.g_time offset) env result ↔
        env.truthful params.protocol
          (completMsg glib element msgID env.g_time offset).length = true) := by
  obtain ⟨offset, hoffset, hpath⟩ := sendMessage_path h
  exact ⟨offset, hoffset, hpath.statusTruthful_iff henv⟩

/-- At the given time every call succeeds, and `g_output_stream_write` writes `n` bytes. -/
def writingEnv (now : Time) (n : Nat) : SendEnv :=
  { exampleEnv now with written := some n }

/-- A call through TLS whose message is written whole. -/
theorem sendMessage_status_truthful_iff_written :
    ∃ result,
      sendMessage exampleGLib (exampleSender 0) (render exampleGLib exampleHeader exampleReading)
        1 (writingEnv 100 144) = some result ∧
      result.status = exitSuccess ∧
      StatusTruthful
        (completMsg exampleGLib (render exampleGLib exampleHeader exampleReading) 1 ⟨0, 0⟩ 93)
        (writingEnv 100 144) result := by
  refine ⟨_, rfl, rfl, ?_⟩
  have henv : (writingEnv 100 144).ErrnoDocumented := ⟨by decide, by decide, by decide⟩
  have hsend : sendMessage exampleGLib (exampleSender 0)
      (render exampleGLib exampleHeader exampleReading) 1 (writingEnv 100 144) = some _ := rfl
  obtain ⟨offset, hoffset, htruthful⟩ := sendMessage_status_truthful_iff henv hsend
  have hninetyThree : offset = 93 := by
    have hreading : messageOffset 100 7 = some 93 := by decide
    exact Option.some.inj (hoffset.symm.trans hreading)
  subst hninetyThree
  exact htruthful.mpr (by decide +kernel)

/-- The host is not found and `errno` is zero. -/
def unknownHostEnv (now : Time) : SendEnv :=
  { exampleEnv now with hostFound := false }

/-- A socket call on an unknown host while `errno` is zero, and a TLS call whose write takes ten
bytes of the message, both return `EXIT_SUCCESS`. -/
theorem success_without_delivery :
    (∃ result,
      (unknownHostEnv 100).ErrnoDocumented ∧
      sendMessage exampleGLib (exampleSender 1) (render exampleGLib exampleHeader exampleReading)
        1 (unknownHostEnv 100) = some result ∧
      result.status = exitSuccess ∧
      ¬ StatusTruthful
        (completMsg exampleGLib (render exampleGLib exampleHeader exampleReading) 1 ⟨0, 0⟩ 93)
        (unknownHostEnv 100) result) ∧
    ∃ result,
      (writingEnv 100 10).ErrnoDocumented ∧
      sendMessage exampleGLib (exampleSender 0) (render exampleGLib exampleHeader exampleReading)
        1 (writingEnv 100 10) = some result ∧
      result.status = exitSuccess ∧
      ¬ StatusTruthful
        (completMsg exampleGLib (render exampleGLib exampleHeader exampleReading) 1 ⟨0, 0⟩ 93)
        (writingEnv 100 10) result := by
  constructor
  · refine ⟨_, ⟨by decide, by decide, by decide⟩, rfl, rfl, ?_⟩
    exact StatusTruthful.not_of_failed (.head _) rfl rfl
  · have henv : (writingEnv 100 10).ErrnoDocumented := ⟨by decide, by decide, by decide⟩
    have hpath : SendPath (exampleSender 0)
        (completMsg exampleGLib (render exampleGLib exampleHeader exampleReading) 1 ⟨0, 0⟩ 93)
        (writingEnv 100 10) _ := .written rfl rfl rfl rfl
    refine ⟨_, henv, rfl, rfl, ?_⟩
    intro h
    have htruthful := (hpath.statusTruthful_iff henv).mp h
    revert htruthful
    decide +kernel

end AlertProbe
