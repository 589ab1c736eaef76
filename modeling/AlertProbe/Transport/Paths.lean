import AlertProbe.Model.Sender

/-!
# Ways through sendMessage

`sendMessage` has eight exits.  `SendPath` lists them, each with the results of the
calls that lead there, the calls that were made and the exit status.

Main results:

- Theorem `sendMessage_path`: every call of `sendMessage` takes one of the listed ways.
- Theorem `sendMessage_undefined`: what makes a call undefined.
- Theorem `SendPath.call_cases`: what a call hands over, and the port that it names.
- Theorem `sendMessage_payload`: what is handed to the transport is the text that
  `snprintf` left in `completMsg`.
- Theorem `sendMessage_status`: the results of the calls that make `sendMessage`
  return `EXIT_SUCCESS`.
-/

namespace AlertProbe

open Foundations

/-- The type that `initConnection` passes to `socket`. -/
def SenderParams.socketType (params : SenderParams) : SocketType :=
  if params.protocol = 1 then .dgram else .stream

/-- The engine of the unit tests, reached through the given protocol. -/
def exampleSender (protocol : UInt8) : SenderParams :=
  ⟨ascii "127.0.0.1", 443, protocol⟩

/-- The exits of `sendMessage`.  The first three belong to protocol 0. -/
inductive SendPath (params : SenderParams) (message : CString) (env : SendEnv) :
    SendResult → Prop where
  | refused {uri : CString} (hprotocol : params.protocol = 0)
      (huri : strcat 265 (ascii "simple://") params.address = some uri)
      (hconnected : env.connected = false) :
      SendPath params message env ⟨exitFailure, [.connectToUri uri params.port]⟩
  | writeFailed {uri : CString} (hprotocol : params.protocol = 0)
      (huri : strcat 265 (ascii "simple://") params.address = some uri)
      (hconnected : env.connected = true) (hwritten : env.written = none) :
      SendPath params message env
        ⟨exitFailure, [.connectToUri uri params.port, .write message, .unrefConnection]⟩
  | written {uri : CString} {n : Nat} (hprotocol : params.protocol = 0)
      (huri : strcat 265 (ascii "simple://") params.address = some uri)
      (hconnected : env.connected = true) (hwritten : env.written = some n) :
      SendPath params message env
        ⟨exitSuccess, [.connectToUri uri params.port, .write message, .unrefConnection]⟩
  | unknownHost (hprotocol : params.protocol ≠ 0) (hhost : env.hostFound = false) :
      SendPath params message env
        ⟨env.errnoInitConnection, [.gethostbyname params.address]⟩
  | noSocket (hprotocol : params.protocol ≠ 0) (hhost : env.hostFound = true)
      (hsock : env.sock = INVALID_SOCKET) (herrno : env.errnoSocket ≠ 0) :
      SendPath params message env
        ⟨env.errnoInitConnection,
          [.gethostbyname params.address, .socket params.socketType]⟩
  | sendtoFailed (hprotocol : params.protocol ≠ 0) (hhost : env.hostFound = true)
      (hopen : env.sock = INVALID_SOCKET → env.errnoSocket = 0) (hsendto : env.sendto < 0) :
      SendPath params message env
        ⟨env.errnoSendto,
          [.gethostbyname params.address, .socket params.socketType,
            .sendto env.sock message params.port]⟩
  | closeFailed (hprotocol : params.protocol ≠ 0) (hhost : env.hostFound = true)
      (hopen : env.sock = INVALID_SOCKET → env.errnoSocket = 0) (hsendto : 0 ≤ env.sendto)
      (hclose : env.closesocket ≠ 0) (herrno : env.errnoClosesocket ≠ 0) :
      SendPath params message env
        ⟨env.errnoEndConnection,
          [.gethostbyname params.address, .socket params.socketType,
            .sendto env.sock message params.port, .closesocket env.sock]⟩
  | sent (hprotocol : params.protocol ≠ 0) (hhost : env.hostFound = true)
      (hopen : env.sock = INVALID_SOCKET → env.errnoSocket = 0) (hsendto : 0 ≤ env.sendto)
      (hclose : env.closesocket = 0 ∨ env.errnoClosesocket = 0) :
      SendPath params message env
        ⟨exitSuccess,
          [.gethostbyname params.address, .socket params.socketType,
            .sendto env.sock message params.port, .closesocket env.sock]⟩

/-! ## One lemma for each part of sendMessage -/

/-- `sendTls` takes one of the first three ways. -/
theorem sendTls_path {params : SenderParams} {message : CString} {env : SendEnv}
    {result : SendResult} (hprotocol : params.protocol = 0)
    (h : sendTls params message env = some result) : SendPath params message env result := by
  simp only [sendTls, Option.bind_eq_bind, Option.bind_eq_some_iff] at h
  obtain ⟨uri, huri, hresult⟩ := h
  split at hresult
  · rename_i hconnected
    cases hresult
    exact .refused hprotocol huri hconnected
  · rename_i hconnected
    have hconnected : env.connected = true := by simpa using hconnected
    cases hwritten : env.written with
    | none =>
        simp only [hwritten, if_true, Option.some.injEq] at hresult
        rw [← hresult]
        exact .writeFailed hprotocol huri hconnected hwritten
    | some n =>
        simp only [hwritten, reduceCtorEq, if_false, Option.some.injEq] at hresult
        rw [← hresult]
        exact .written hprotocol huri hconnected hwritten

/-- Without a host or a socket, `initConnection` fails; otherwise it leaves a socket, unless
`errno` was zero when `socket` had failed. -/
theorem initConnection_cases {params : SenderParams} (hprotocol : params.protocol ≠ 0)
    (env : SendEnv) :
    (env.hostFound = false ∧
      initConnection params env = ⟨exitFailure, [.gethostbyname params.address]⟩) ∨
    (env.hostFound = true ∧ env.sock = INVALID_SOCKET ∧ env.errnoSocket ≠ 0 ∧
      initConnection params env =
        ⟨env.errnoSocket, [.gethostbyname params.address, .socket params.socketType]⟩) ∨
    (env.hostFound = true ∧ (env.sock = INVALID_SOCKET → env.errnoSocket = 0) ∧
      initConnection params env =
        ⟨exitSuccess, [.gethostbyname params.address, .socket params.socketType]⟩) := by
  unfold initConnection SenderParams.socketType
  simp only [hprotocol, if_false]
  cases hhost : env.hostFound
  · exact Or.inl ⟨rfl, rfl⟩
  · refine Or.inr ?_
    by_cases hsock : env.sock = INVALID_SOCKET
    · by_cases herrno : env.errnoSocket = 0
      · refine Or.inr ⟨rfl, fun _ => herrno, ?_⟩
        simp [hsock, herrno, exitSuccess]
      · refine Or.inl ⟨rfl, hsock, herrno, ?_⟩
        simp [hsock]
    · refine Or.inr ⟨rfl, fun hinvalid => absurd hinvalid hsock, ?_⟩
      simp [hsock]

/-- `sendSocket` takes one of the other ways. -/
theorem sendSocket_path {params : SenderParams} (hprotocol : params.protocol ≠ 0)
    (message : CString) (env : SendEnv) :
    SendPath params message env (sendSocket params message env) := by
  have hfailure : exitFailure ≠ 0 := by decide
  have hsuccess : ¬ exitSuccess ≠ 0 := by decide
  unfold sendSocket
  rcases initConnection_cases hprotocol env with
    ⟨hhost, hinit⟩ | ⟨hhost, hsock, herrno, hinit⟩ | ⟨hhost, hopen, hinit⟩
  · simp only [hinit, hfailure, ne_eq, not_false_eq_true, if_true]
    exact .unknownHost hprotocol hhost
  · simp only [hinit, herrno, ne_eq, not_false_eq_true, if_true]
    exact .noSocket hprotocol hhost hsock herrno
  · simp only [hinit, hsuccess, if_false, List.cons_append, List.nil_append]
    by_cases hsendto : env.sendto < 0
    · simp only [hsendto, if_true]
      exact .sendtoFailed hprotocol hhost hopen hsendto
    · have hsendto' : 0 ≤ env.sendto := not_lt.mp hsendto
      simp only [hsendto, if_false]
      unfold endConnection
      by_cases hclose : env.closesocket = 0
      · simp only [hclose, ne_eq, not_true_eq_false, if_false, hsuccess]
        exact .sent hprotocol hhost hopen hsendto' (Or.inl hclose)
      · by_cases herrno : env.errnoClosesocket = 0
        · simp only [hclose, ne_eq, not_false_eq_true, if_true, herrno, not_true_eq_false,
            if_false]
          exact .sent hprotocol hhost hopen hsendto' (Or.inr herrno)
        · simp only [hclose, ne_eq, not_false_eq_true, if_true, herrno]
          exact .closeFailed hprotocol hhost hopen hsendto' hclose herrno

/-- Every call of `sendMessage` that returns takes one of the listed ways. -/
theorem sendMessage_path {glib : GLib} {params : SenderParams}
    {element : SDElementQueueElement} {msgID : UInt16} {env : SendEnv} {result : SendResult}
    (h : sendMessage glib params element msgID env = some result) :
    ∃ offset, messageOffset env.now element.time = some offset ∧
      SendPath params (completMsg glib element msgID env.g_time offset) env result := by
  simp only [sendMessage, Option.bind_eq_bind, Option.bind_eq_some_iff] at h
  obtain ⟨offset, hoffset, hsend⟩ := h
  refine ⟨offset, hoffset, ?_⟩
  by_cases hprotocol : params.protocol = 0
  · rw [if_pos hprotocol] at hsend
    exact sendTls_path hprotocol hsend
  · rw [if_neg hprotocol] at hsend
    cases hsend
    exact sendSocket_path hprotocol _ env

/-- A call of `sendMessage` is undefined only if no `int` holds its offset, or if `uri` is too
small for the address. -/
theorem sendMessage_undefined {glib : GLib} {params : SenderParams}
    {element : SDElementQueueElement} {msgID : UInt16} {env : SendEnv}
    (h : sendMessage glib params element msgID env = none) :
    messageOffset env.now element.time = none ∨
      strcat 265 (ascii "simple://") params.address = none := by
  cases hoffset : messageOffset env.now element.time with
  | none => exact Or.inl rfl
  | some offset =>
      refine Or.inr ?_
      simp only [sendMessage, hoffset, Option.bind_eq_bind, Option.bind_some] at h
      split at h
      · cases huri : strcat 265 (ascii "simple://") params.address with
        | none => rfl
        | some uri =>
            simp only [sendTls, huri, Option.bind_eq_bind, Option.bind_some] at h
            split at h
            · cases h
            · split at h <;> cases h
      · cases h

/-! ## Calls -/

/-- The port that a call names. -/
def TransportCall.port : TransportCall → Option UInt16
  | .connectToUri _ port => some port
  | .connect _ port => some port
  | .sendto _ _ port => some port
  | _ => none

/-- A call hands over the message or nothing, and names the configured port or none. -/
theorem SendPath.call_cases {params : SenderParams} {message : CString} {env : SendEnv}
    {result : SendResult} (h : SendPath params message env result) :
    ∀ call ∈ result.calls,
      (call.payload = none ∨ call.payload = some message) ∧
        (call.port = none ∨ call.port = some params.port) := by
  intro call hcall
  cases h <;>
  · simp only [List.mem_cons, List.not_mem_nil, or_false] at hcall
    rcases hcall with rfl | rfl | rfl | rfl <;>
      simp [TransportCall.payload, TransportCall.port]

/-- Every call that names a port names the configured one. -/
theorem SendPath.port {params : SenderParams} {message : CString} {env : SendEnv}
    {result : SendResult} (h : SendPath params message env result) :
    ∀ call ∈ result.calls, ∀ port, call.port = some port → port = params.port := by
  intro call hcall port hport
  rcases (h.call_cases call hcall).2 with hnone | hconfigured
  · rw [hnone] at hport
    cases hport
  · rw [hconfigured, Option.some.injEq] at hport
    exact hport.symm

/-- Every byte string that `sendMessage` hands to the transport is the text in `completMsg`. -/
theorem sendMessage_payload {glib : GLib} {params : SenderParams}
    {element : SDElementQueueElement} {msgID : UInt16} {env : SendEnv} {result : SendResult}
    (h : sendMessage glib params element msgID env = some result) :
    ∃ offset, messageOffset env.now element.time = some offset ∧
      ∀ call ∈ result.calls, ∀ data, call.payload = some data →
        data = completMsg glib element msgID env.g_time offset := by
  obtain ⟨offset, hoffset, hpath⟩ := sendMessage_path h
  refine ⟨offset, hoffset, ?_⟩
  intro call hcall data hdata
  rcases (hpath.call_cases call hcall).1 with hnone | hmessage
  · rw [hnone] at hdata
    cases hdata
  · rw [hmessage, Option.some.injEq] at hdata
    exact hdata.symm

/-! ## Exit status -/

/-- The results of the calls with which the transport takes the message over without any
reported failure.  Where a failure is reported through `errno`, an `errno` of zero hides it. -/
def SendEnv.reportsSuccess (env : SendEnv) (protocol : UInt8) : Bool :=
  if protocol = 0 then env.connected && env.written.isSome
  else if env.hostFound = false then env.errnoInitConnection == 0
  else if env.sock = INVALID_SOCKET ∧ env.errnoSocket ≠ 0 then env.errnoInitConnection == 0
  else if env.sendto < 0 then env.errnoSendto == 0
  else if env.closesocket ≠ 0 ∧ env.errnoClosesocket ≠ 0 then env.errnoEndConnection == 0
  else true

/-- The ways that end with `EXIT_SUCCESS` are those whose calls report success. -/
theorem SendPath.status_iff {params : SenderParams} {message : CString} {env : SendEnv}
    {result : SendResult} (h : SendPath params message env result) :
    result.status = exitSuccess ↔ env.reportsSuccess params.protocol = true := by
  have hfailure : exitFailure ≠ exitSuccess := by decide
  have hopened : (env.sock = INVALID_SOCKET → env.errnoSocket = 0) →
      ¬ (env.sock = INVALID_SOCKET ∧ env.errnoSocket ≠ 0) := by
    rintro hopen ⟨hsock, herrno⟩
    exact herrno (hopen hsock)
  unfold SendEnv.reportsSuccess
  cases h with
  | refused hprotocol _ hconnected => simp [hprotocol, hconnected, hfailure]
  | writeFailed hprotocol _ _ hwritten => simp [hprotocol, hwritten, hfailure]
  | written hprotocol _ hconnected hwritten => simp [hprotocol, hconnected, hwritten]
  | unknownHost hprotocol hhost => simp [hprotocol, hhost, exitSuccess]
  | noSocket hprotocol hhost hsock herrno =>
      simp [hprotocol, hhost, hsock, herrno, exitSuccess]
  | sendtoFailed hprotocol hhost hopen hsendto =>
      simp [hprotocol, hhost, hopened hopen, hsendto, exitSuccess]
  | closeFailed hprotocol hhost hopen hsendto hclose herrno =>
      simp [hprotocol, hhost, hopened hopen, not_lt.mpr hsendto, hclose, herrno, exitSuccess]
  | sent hprotocol hhost hopen hsendto hclose =>
      have hclosed : ¬ (env.closesocket ≠ 0 ∧ env.errnoClosesocket ≠ 0) := by
        rintro ⟨hfailed, herrno⟩
        exact hclose.elim hfailed herrno
      simp [hprotocol, hhost, hopened hopen, not_lt.mpr hsendto, hclosed]

/-- `sendMessage` returns `EXIT_SUCCESS` exactly when the results of its calls report
success. -/
theorem sendMessage_status {glib : GLib} {params : SenderParams}
    {element : SDElementQueueElement} {msgID : UInt16} {env : SendEnv} {result : SendResult}
    (h : sendMessage glib params element msgID env = some result) :
    result.status = exitSuccess ↔ env.reportsSuccess params.protocol = true := by
  obtain ⟨_, _, hpath⟩ := sendMessage_path h
  exact hpath.status_iff

end AlertProbe
