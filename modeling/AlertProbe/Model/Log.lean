import AlertProbe.Foundations.SharedFile
import AlertProbe.Foundations.TextLines
import AlertProbe.Model.Daemon

/-!
# The log

`log2Console` and `log2File` of `log.c`, the handlers that `main` registers for the
messages of the probe.  Handlers run in the thread that logs, and nothing keeps
them apart: every call of `log2File` opens the file for itself.

Its record gets there when the buffer of the stream is full and when the stream is
closed.  `g_print` writes to a stream that all threads share, and holds its lock.

`main` logs its start and its stop, and so does `logStopProbe` where it fails in
between.  Every record shows the pid of the process that entered `main`.  Other threads
and the signal handlers log at any time behind the start, behind the stop too: the
handlers stay installed until `execve` or the end of the process.
-/

namespace AlertProbe

open Foundations

/-- `LogParams` of `log.h`. -/
structure LogParams where
  hostname : CString
  appName : CString
  pId : Int32
  logFilePath : CString
deriving DecidableEq, Repr

/-- A message that is logged, and what the calls of the handler return. -/
structure LogCall where
  message : CString
  /-- `strerror(errno)`, when the file could not be opened. -/
  fopenError : Option CString
  /-- What `g_date_time_format` makes of the first time that is read. -/
  dateTime : CString
  /-- The same of the second one, which is read when the file could not be opened. -/
  laterDateTime : CString
deriving DecidableEq, Repr

/-- Where records are written. -/
inductive LogOutput where
  | console
  | logFile
deriving DecidableEq, Repr

/-- `"%s %s %s %d - %s\n"` -/
def recordText (logParams : LogParams) (dateTimeFormat message : CString) : CString :=
  dateTimeFormat ++ ascii " " ++ logParams.hostname ++ ascii " " ++ logParams.appName ++
    ascii " " ++ decimal logParams.pId.toInt ++ ascii " - " ++ message ++ ascii "\n"

/-- `"Error opening file %s: %s"` -/
def errorMsg (logParams : LogParams) (error : CString) : CString :=
  ascii "Error opening file " ++ logParams.logFilePath ++ ascii ": " ++ error

/-- What a call of `log2Console` writes. -/
def log2Console (logParams : LogParams) (dateTimeFormat message : CString) :
    LogOutput × CString :=
  (.console, recordText logParams dateTimeFormat message)

/-- What a call of `log2File` writes. -/
def log2File (logParams : LogParams) (call : LogCall) : List (LogOutput × CString) :=
  match call.fopenError with
  | some error =>
      [log2Console logParams call.dateTime (errorMsg logParams error),
        log2Console logParams call.laterDateTime call.message]
  | none => [(.logFile, recordText logParams call.dateTime call.message)]

/-- The handler that `main` registers. -/
def logHandler (build : Build) (logParams : LogParams) (call : LogCall) :
    List (LogOutput × CString) :=
  match build with
  | .debug => [log2Console logParams call.dateTime call.message]
  | .release => log2File logParams call

/-- The size of the buffer that `log2File` gets with its stream. -/
def bufferSize (BUFSIZ : Nat) : LogOutput → Option Nat
  | .console => none
  | .logFile => some BUFSIZ

/-- What is written is handed over in blocks of the size of the buffer. -/
def handedOver (BUFSIZ : Nat) (written : LogOutput × CString) : List (LogOutput × CString) :=
  (SharedFiles.blocks (bufferSize BUFSIZ written.1) written.2).map fun block =>
    (written.1, block)

/-- The threads of the probe, each with the messages that it logs. -/
def loggers {ι : Type} [DecidableEq ι] (build : Build) (logParams : LogParams) (BUFSIZ : Nat)
    (calls : ι → List LogCall) : Machine (SharedFiles ι LogOutput UInt8) ι :=
  SharedFiles.writers fun i =>
    ((calls i).flatMap (logHandler build logParams)).flatMap (handedOver BUFSIZ)

/-! ## What main logs -/

def PRODUCT_NAME : CString := ascii "ECHOES Alert - Probe"

def VERSION : CString := ascii "0.1.0"

/-- `"[origin enterpriseId=\"40311\" software=\"%s\" swVersion=\"%s\"] "` and an event. -/
def originText (probeName probeVersion : CString) (event : String) : CString :=
  ascii "[origin enterpriseId=\"40311\" software=\"" ++ probeName ++ ascii "\" swVersion=\"" ++
    probeVersion ++ ascii "\"] " ++ ascii event

/-- What `logStopProbe` logs. -/
def logStopProbe (probeName probeVersion : CString) : CString :=
  originText probeName probeVersion "stop"

/-- The messages of the daemon. -/
inductive LogMessage where
  | start
  | stop
  | other (message : CString)
deriving DecidableEq, Repr

/-- The text of a message. -/
def LogMessage.text : LogMessage → CString
  | .start => originText PRODUCT_NAME VERSION "(re)start"
  | .stop => logStopProbe PRODUCT_NAME VERSION
  | .other message => message

example :
    LogMessage.stop.text =
      ascii ("[origin enterpriseId=\"40311\" software=\"ECHOES Alert - Probe\" " ++
        "swVersion=\"0.1.0\"] stop") := by
  decide +kernel

/-- What the calls made by one run of `main` have to say. -/
structure MainTexts where
  /-- `strerror(errno)` behind `chdir`. -/
  chdirError : CString
  /-- `strerror(errno)` behind `fopen` of the pid file. -/
  pidFileError : CString
  /-- `strerror(errno)` behind `pthread_create`. -/
  threadError : CString
  /-- What is logged by `loadConf`. -/
  loadConf : List CString
  /-- What is logged while the addons are loaded. -/
  addonManager : List CString
deriving DecidableEq, Repr

/-- `"Critical: %s: %s"` -/
def criticalText (error : CString) (subject : String) : CString :=
  ascii "Critical: " ++ error ++ ascii ": " ++ ascii subject

/-- What is logged when the pid file cannot be opened. -/
def pidFileLog (build : Build) (env : MainEnv) (texts : MainTexts) : List LogMessage :=
  if build = .release ∧ env.pidFileOpened = false then
    [.other (criticalText texts.pidFileError "/var/run/ea-probe.pid")]
  else []

/-- What `main` logs, entered by the process `pid`, up to the call of `signalsHandler`. -/
def mainLog (build : Build) (argc : Nat) (pid : Int32) (env : MainEnv) (texts : MainTexts) :
    List LogMessage :=
  if 1 < argc then []
  else
    match daemonize build pid env with
    | .error _ =>
        if build = .release ∧ env.chdir ≠ 0 then [.other texts.chdirError] else []
    | .ok _ =>
        let configured := .start :: (pidFileLog build env texts ++ texts.loadConf.map .other)
        if env.loadConf = none then configured ++ [.stop]
        else
          let loaded := configured ++ texts.addonManager.map .other
          if env.addonManager ≠ 0 then loaded ++ [.stop]
          else if env.formatThread ≠ 0 then
            loaded ++ [.other (criticalText texts.threadError "formatThread"), .stop]
          else if env.senderThread ≠ 0 then
            loaded ++ [.other (criticalText texts.threadError "senderThread"), .stop]
          else loaded

/-- The process that logs it. -/
def mainProcess (build : Build) (pid : Int32) (env : MainEnv) : Int32 :=
  match daemonize build pid env with
  | .ok daemon => daemon
  | .error _ => pid

/-! ## The log of the daemon -/

/-- A message in the log: the pid that its record shows and, as a history variable, the process
that logged it. -/
structure LoggedMessage where
  pId : Int32
  process : Int32
  message : LogMessage
deriving DecidableEq, Repr

/-- `main` on its way: the pid that its records show, its process, what it has still to log and
what becomes of the daemon behind that. -/
structure MainRun where
  pId : Int32
  process : Int32
  todo : List LogMessage
  next : DaemonState
  /-- The start has been logged, so there may be other threads. -/
  begun : Bool
deriving DecidableEq, Repr

/-- The daemon and its log. -/
structure LoggedDaemon where
  daemon : DaemonState
  /-- `main` on its way to its threads, or behind them. -/
  running : Option MainRun
  log : List LoggedMessage
  killed : Bool
deriving DecidableEq, Repr

/-- What the daemon does next. -/
inductive LoggedAction where
  /-- `main` is called. -/
  | main (env : MainEnv) (texts : MainTexts)
  /-- `main` logs its next message. -/
  | record
  /-- `main` goes on, with nothing left to log. -/
  | proceed
  /-- Another thread or a signal handler logs a message. -/
  | message (text : CString)
  /-- A signal without a handler ends the process, or a `SIGPIPE`, whose handler calls `g_error`.
  `main` registers no handler for fatal messages, so GLib prints that one itself. -/
  | kill
  /-- `waitForShutdown` returns the signal; then the results of `execve`. -/
  | stop (signum : Int) (execve : List Bool)
deriving DecidableEq, Repr

/-- A step while `main` is on its way. -/
def runningStep (s : LoggedDaemon) (run : MainRun) (a : LoggedAction) : Outcome LoggedDaemon :=
  match a with
  | .record =>
      match run.todo with
      | [] => .blocked
      | message :: todo =>
          .next { s with
            running := some { run with todo := todo, begun := run.begun || message == .start }
            log := s.log ++ [⟨run.pId, run.process, message⟩] }
  | .proceed =>
      if run.todo = [] then .next { s with daemon := run.next, running := none } else .blocked
  | .message text =>
      if run.begun = true then
        .next { s with log := s.log ++ [⟨run.pId, run.process, .other text⟩] }
      else .blocked
  | .kill => .next { s with killed := true }
  | .main _ _ | .stop _ _ => .blocked

/-- A step between the calls of `main` and while the threads run. -/
def idleStep (build : Build) (argc : Nat) (s : LoggedDaemon) (a : LoggedAction) :
    Outcome LoggedDaemon :=
  match s.daemon, a with
  | .entering pid, .main env texts =>
      (daemonStep build argc s.daemon (.start env)).map fun next =>
        let todo := mainLog build argc pid env texts
        { s with running := some ⟨pid, mainProcess build pid env, todo, next, false⟩ }
  | .serving started, .message text =>
      .next { s with log := s.log ++ [⟨started.logPId, started.pid, .other text⟩] }
  | .serving started, .stop signum execve =>
      (daemonStep build argc s.daemon (.stop signum execve)).map fun next =>
        { s with running := some ⟨started.logPId, started.pid, [.stop], next, true⟩ }
  | .entering _, .kill | .serving _, .kill => .next { s with killed := true }
  | _, _ => .blocked

/-- A step of the daemon, with what is logged. -/
def loggedStep (build : Build) (argc : Nat) (s : LoggedDaemon) (a : LoggedAction) :
    Outcome LoggedDaemon :=
  if s.killed = true then .blocked
  else
    match s.running with
    | some run => runningStep s run a
    | none => idleStep build argc s a

/-- The daemon with its log as a machine, entered by the process `pid`. -/
def loggedDaemon (build : Build) (argc : Nat) (pid : Int32) :
    Machine LoggedDaemon LoggedAction where
  initial := ⟨.entering pid, none, [], false⟩
  step := loggedStep build argc

end AlertProbe
