import AlertProbe.Model.Format

/-!
# The sender thread's functions

`sendMessage`, `popSDElementQueue` and `heartBeat` of `sender.c`.  The results of
the library and system calls that `sendMessage` makes are its argument
`SendEnv`; the calls that it makes, with their arguments, are part of its
result.  A result `none` is undefined behaviour: a write behind the end of `uri`,
or the conversion to `int` of a time difference that no `int` holds.
-/

namespace AlertProbe

open Foundations

/-- Seconds of silence before a heartbeat. -/
def HEARTBEAT : Int := 10

/-- `INVALID_SOCKET`. -/
def INVALID_SOCKET : Int := -1

/-- `SOCKET_ERROR`. -/
def SOCKET_ERROR : Int := -1

/-! ## The calls of one sendMessage -/

/-- The kinds of sockets that `initConnection` asks for. -/
inductive SocketType where
  | dgram
  | stream
deriving DecidableEq, Repr

/-- A call that reaches the transport. -/
inductive TransportCall where
  | connectToUri (uri : CString) (port : UInt16)
  | write (data : CString)
  | unrefConnection
  | gethostbyname (address : CString)
  | socket (type : SocketType)
  | connect (sock : Int) (port : UInt16)
  | sendto (sock : Int) (data : CString) (port : UInt16)
  | closesocket (sock : Int)
deriving DecidableEq, Repr

/-- The bytes that a call hands to the transport. -/
def TransportCall.payload : TransportCall → Option CString
  | .write data => some data
  | .sendto _ data _ => some data
  | _ => none

/-- What the calls made by one `sendMessage` return.  Each `errno` field is the value of
`errno` where the source reads it to return it. -/
structure SendEnv where
  /-- `time(&now)` -/
  now : Time
  /-- `g_get_current_time(&g_time)` -/
  g_time : GTimeVal
  /-- `g_socket_client_connect_to_uri` set no error. -/
  connected : Bool
  /-- Bytes written by `g_output_stream_write`, or `none` when it set an error. -/
  written : Option Nat
  /-- `gethostbyname` found the host. -/
  hostFound : Bool
  sock : Int
  connect : Int
  sendto : Int
  closesocket : Int
  errnoSocket : Int32
  errnoConnect : Int32
  errnoInitConnection : Int32
  errnoSendto : Int32
  errnoClosesocket : Int32
  errnoEndConnection : Int32
deriving DecidableEq, Repr

/-- At the given time every call succeeds. -/
def exampleEnv (now : Time) : SendEnv where
  now := now
  g_time := ⟨0, 0⟩
  connected := true
  written := some 100
  hostFound := true
  sock := 3
  connect := 0
  sendto := 100
  closesocket := 0
  errnoSocket := 0
  errnoConnect := 0
  errnoInitConnection := 0
  errnoSendto := 0
  errnoClosesocket := 0
  errnoEndConnection := 0

/-- At the given time the engine refuses the connection. -/
def refusedEnv (now : Time) : SendEnv :=
  { exampleEnv now with connected := false }

/-- An exit status and the calls made on the way to it. -/
structure SendResult where
  status : Int32
  calls : List TransportCall
deriving DecidableEq, Repr

/-! ## initConnection and endConnection -/

/-- `initConnection`. -/
def initConnection (params : SenderParams) (env : SendEnv) : SendResult :=
  if env.hostFound = false then
    ⟨exitFailure, [.gethostbyname params.address]⟩
  else
    let type := if params.protocol = 1 then SocketType.dgram else SocketType.stream
    if env.sock = INVALID_SOCKET then
      ⟨env.errnoSocket, [.gethostbyname params.address, .socket type]⟩
    else if params.protocol = 0 then
      let calls :=
        [.gethostbyname params.address, .socket type, .connect env.sock params.port]
      if env.connect = SOCKET_ERROR then ⟨env.errnoConnect, calls⟩ else ⟨exitSuccess, calls⟩
    else
      ⟨exitSuccess, [.gethostbyname params.address, .socket type]⟩

/-- `endConnection`. -/
def endConnection (env : SendEnv) : SendResult :=
  if env.closesocket ≠ 0 then ⟨env.errnoClosesocket, [.closesocket env.sock]⟩
  else ⟨exitSuccess, [.closesocket env.sock]⟩

/-! ## sendMessage -/

/-- `(int)difftime(now, collectTime)`. -/
def messageOffset (now collectTime : Time) : Option Int32 :=
  if -2 ^ 31 ≤ now - collectTime ∧ now - collectTime < 2 ^ 31 then
    some (Int32.ofInt (now - collectTime))
  else none

/-- The whole message, before `snprintf` cuts it. -/
def completeText (glib : GLib) (element : SDElementQueueElement) (msgID : UInt16)
    (g_time : GTimeVal) (offset : Int32) : CString :=
  ascii "<118>1 " ++ glib.g_time_val_to_iso8601 g_time ++ ascii " " ++
    element.beforeMsgID ++ decimal msgID.toNat ++ ascii " " ++
    element.afterMsgID ++ decimal offset.toInt ++ element.afterOffset ++ ascii "]\n"

/-- The text that `snprintf` leaves in the 480 bytes of `completMsg`. -/
def completMsg (glib : GLib) (element : SDElementQueueElement) (msgID : UInt16)
    (g_time : GTimeVal) (offset : Int32) : CString :=
  snprintf 480 (completeText glib element msgID g_time offset)

/-- The branch of `sendMessage` for protocol 0: TLS through GLib. -/
def sendTls (params : SenderParams) (message : CString) (env : SendEnv) :
    Option SendResult := do
  let uri ← strcat 265 (ascii "simple://") params.address
  if env.connected = false then
    some ⟨exitFailure, [.connectToUri uri params.port]⟩
  else
    let calls := [.connectToUri uri params.port, .write message, .unrefConnection]
    if env.written = none then some ⟨exitFailure, calls⟩ else some ⟨exitSuccess, calls⟩

/-- The branch of `sendMessage` for every other protocol: a plain socket. -/
def sendSocket (params : SenderParams) (message : CString) (env : SendEnv) : SendResult :=
  let opening := initConnection params env
  if opening.status ≠ 0 then
    ⟨env.errnoInitConnection, opening.calls⟩
  else
    let sending := opening.calls ++ [.sendto env.sock message params.port]
    if env.sendto < 0 then
      ⟨env.errnoSendto, sending⟩
    else
      let closing := endConnection env
      if closing.status ≠ 0 then ⟨env.errnoEndConnection, sending ++ closing.calls⟩
      else ⟨exitSuccess, sending ++ closing.calls⟩

/-- `sendMessage`, on the fields of an element of the SD-Element queue. -/
def sendMessage (glib : GLib) (params : SenderParams) (element : SDElementQueueElement)
    (msgID : UInt16) (env : SendEnv) : Option SendResult := do
  let offset ← messageOffset env.now element.time
  let message := completMsg glib element msgID env.g_time offset
  if params.protocol = 0 then sendTls params message env
  else some (sendSocket params message env)

/-! ## popSDElementQueue and heartBeat -/

/-- The exit status of `popSDElementQueue`, the queue that it leaves, and what came of its
call of `sendMessage`, if it made one. -/
structure PopResult where
  status : Int32
  queue : List SDElementQueueElement
  sent : Option SendResult
deriving DecidableEq, Repr

/-- `popSDElementQueue`.  The exit status of `sendMessage` is not looked at. -/
def popSDElementQueue (glib : GLib) (params : SenderParams)
    (queue : List SDElementQueueElement) (msgID : UInt16) (env : SendEnv) : Option PopResult :=
  match queue with
  | [] => some ⟨exitSuccess, [], none⟩
  | popedElement :: next => do
      let sent ← sendMessage glib params popedElement msgID env
      some ⟨exitSuccess, next, some sent⟩

/-- The value that `heartBeat` returns, its static `tmpTime` and the queue afterwards. -/
structure HeartBeatResult where
  returned : Int32
  tmpTime : Time
  queue : List SDElementQueueElement
deriving DecidableEq, Repr

/-- `heartBeat`, called with the clock reading `collectTime`. -/
def heartBeat (header : SDElementHeader) (collectTime tmpTime : Time)
    (queue : List SDElementQueueElement) : Option HeartBeatResult :=
  if queue = [] ∨ tmpTime = 0 then
    if tmpTime = 0 ∨ collectTime - tmpTime > HEARTBEAT then do
      let queue ← pushSDElementQueue header queue (ascii "") collectTime
      some ⟨1, collectTime, queue⟩
    else some ⟨0, tmpTime, queue⟩
  else some ⟨0, collectTime, queue⟩

/-- The counter reset at the end of the sender's drain loop. -/
def resetMsgID (msgID : UInt16) : UInt16 :=
  if msgID = 65535 then 0 else msgID

end AlertProbe
