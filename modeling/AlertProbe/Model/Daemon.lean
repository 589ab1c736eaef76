import AlertProbe.Foundations.TransitionSystem
import AlertProbe.Model.Conf
import AlertProbe.Model.Sender

/-!
# Start-up, shutdown and restart of the daemon

`main` of `main.c` and `restart` of `signals.c`, up to the point where the threads
run.  The results of the system calls and of the functions that `main` calls are
its argument `MainEnv`.  A process that ends by `exit` or `return` gives its exit
status as an error; after a `fork` the model follows the child.

`getpid` is a constant of a process, so it is the pid of the process that executes
the line.  The initialisers of `main` run in the process that entered `main`.

Main results:

- Theorem `daemonize_release`: which process goes on in the release build.
- Theorems `main_eq_ok` and `main_conf`: what the threads are started with.
- Theorem `daemonStep_serving`: which steps of the daemon start the threads.
-/

namespace AlertProbe

open Foundations

/-- `SIGHUP`. -/
def SIGHUP : Int := 1

/-- What the calls made by one run of `main` return. -/
structure MainEnv where
  /-- `g_get_host_name()` -/
  hostname : CString
  chdir : Int32
  /-- Pid of the child of the first `fork`, or `none` when it failed. -/
  fork1 : Option Int32
  /-- Pid of the child of the second `fork`, or `none` when it failed. -/
  fork2 : Option Int32
  /-- The process that entered `main` is gone when the second `fork` happens. -/
  parentGone : Bool
  /-- `/var/run/ea-probe.pid` could be opened. -/
  pidFileOpened : Bool
  /-- The configuration that `loadConf` filled in, or `none` when it failed. -/
  loadConf : Option Conf
  addonManager : Int32
  formatThread : Int32
  senderThread : Int32
deriving DecidableEq, Repr

/-- The system gives a child no pid of a live process. -/
def MainEnv.freshPids (env : MainEnv) (pid : Int32) : Bool :=
  env.fork1 != some pid && (env.fork2 == none || env.fork2 != env.fork1) &&
    (env.fork2 != some pid || env.parentGone)

/-- What the threads are started with, and the process that runs them. -/
structure Started where
  /-- `logParams.pId` -/
  logPId : Int32
  sdElementQueue : SDElementHeader
  senderParams : SenderParams
  /-- The process of the threads. -/
  pid : Int32
  /-- What was written to the pid file. -/
  pidFile : Option Int32
deriving DecidableEq, Repr

/-- The daemonization in `main`: the process that goes on. -/
def daemonize (build : Build) (pid : Int32) (env : MainEnv) : Except Int32 Int32 :=
  match build with
  | .debug => .ok pid
  | .release =>
      if env.chdir ≠ 0 then .error exitFailure
      else
        match env.fork1 with
        | none => .error exitSuccess
        | some _ =>
            match env.fork2 with
            | none => .error exitSuccess
            | some child => .ok child

/-- The pid file, written by the process `pid`. -/
def writePidFile (build : Build) (pid : Int32) (env : MainEnv) : Option Int32 :=
  match build with
  | .debug => none
  | .release => if env.pidFileOpened then some pid else none

/-- `main`, entered by the process `pid`, up to the call of `signalsHandler`. -/
def main (build : Build) (argc : Nat) (pid : Int32) (env : MainEnv) :
    Except Int32 Started :=
  let logPId := pid
  let queuePID := pid
  if 1 < argc then .error exitSuccess
  else
    match daemonize build pid env with
    | .error status => .error status
    | .ok daemon =>
        let pidFile := writePidFile build daemon env
        match env.loadConf with
        | none => .error exitFailure
        | some conf =>
            if env.addonManager ≠ 0 then .error exitFailure
            else if env.formatThread ≠ 0 then .error exitFailure
            else if env.senderThread ≠ 0 then .error exitFailure
            else
              .ok
                { logPId := logPId
                  sdElementQueue :=
                    { hostname := env.hostname
                      appName := APP_NAME
                      token := conf.token
                      probeID := conf.probeID
                      transportMsgVersion := conf.transportMsgVersion
                      pID := queuePID }
                  senderParams := ⟨conf.engineFQDN, conf.enginePort, conf.transportProto⟩
                  pid := daemon
                  pidFile := pidFile }

/-- `restart`: whether one of the five calls of `execve` replaced the process. -/
def restart (execve : List Bool) : Bool :=
  (execve.take 5).any id

/-! ## Incarnations -/

/-- Where the daemon stands. -/
inductive DaemonState where
  /-- The process `pid` enters `main`. -/
  | entering (pid : Int32)
  | serving (started : Started)
  | ended (status : Int32)
deriving DecidableEq, Repr

/-- What the surroundings of the daemon supply for its next move. -/
inductive DaemonAction where
  | start (env : MainEnv)
  /-- `waitForShutdown` returns the signal; then the results of `execve`. -/
  | stop (signum : Int) (execve : List Bool)
deriving DecidableEq, Repr

/-- A step of the daemon.  `execve` keeps the pid of the process. -/
def daemonStep (build : Build) (argc : Nat) :
    DaemonState → DaemonAction → Outcome DaemonState
  | .entering pid, .start env =>
      if env.freshPids pid = false then .blocked
      else
        match main build argc pid env with
        | .error status => .next (.ended status)
        | .ok started => .next (.serving started)
  | .serving started, .stop signum execve =>
      if signum = 0 then .blocked
      else if signum = SIGHUP ∧ restart execve = true then .next (.entering started.pid)
      else .next (.ended exitSuccess)
  | _, _ => .blocked

/-- The daemon as a machine, entered by the process `pid`. -/
def daemon (build : Build) (argc : Nat) (pid : Int32) :
    Machine DaemonState DaemonAction where
  initial := .entering pid
  step := daemonStep build argc

/-- Every call succeeds and the children get the given pids. -/
def exampleMainEnv (fork1 fork2 : Int32) : MainEnv where
  hostname := ascii "127.0.0.1"
  chdir := 0
  fork1 := some fork1
  fork2 := some fork2
  parentGone := true
  pidFileOpened := true
  loadConf := some ⟨1, 443, 0, 2, ascii "./plugins/", ascii "127.0.0.1", ascii "abcd1234"⟩
  addonManager := 0
  formatThread := 0
  senderThread := 0

/-! ## What main does -/

/-- The debug build stays in its process. -/
@[simp]
theorem daemonize_debug (pid : Int32) (env : MainEnv) : daemonize .debug pid env = .ok pid :=
  rfl

/-- In the release build the child of the second `fork` goes on. -/
theorem daemonize_release {pid child : Int32} {env : MainEnv}
    (h : daemonize .release pid env = .ok child) : env.fork2 = some child := by
  simp only [daemonize] at h
  split at h
  · cases h
  · split at h
    · cases h
    · split at h
      · cases h
      · rename_i hfork
        cases h
        exact hfork

/-- When `main` gets as far as its threads, every call has succeeded. -/
theorem main_cases {build : Build} {argc : Nat} {pid : Int32} {env : MainEnv}
    {started : Started} (h : main build argc pid env = .ok started) :
    ∃ daemon conf, daemonize build pid env = .ok daemon ∧ env.loadConf = some conf ∧
      started =
        { logPId := pid
          sdElementQueue :=
            ⟨env.hostname, APP_NAME, conf.token, conf.probeID, conf.transportMsgVersion, pid⟩
          senderParams := ⟨conf.engineFQDN, conf.enginePort, conf.transportProto⟩
          pid := daemon
          pidFile := writePidFile build daemon env } := by
  simp only [main] at h
  split at h
  · cases h
  · split at h
    · cases h
    · rename_i daemon hdaemonize
      split at h
      · cases h
      · rename_i conf hconf
        split at h
        · cases h
        · split at h
          · cases h
          · split at h
            · cases h
            · cases h
              exact ⟨daemon, conf, hdaemonize, hconf, rfl⟩

/-- The threads are started by the process that daemonization leaves; the initialisers have
recorded the process that entered `main`. -/
theorem main_eq_ok {build : Build} {argc : Nat} {pid : Int32} {env : MainEnv}
    {started : Started} (h : main build argc pid env = .ok started) :
    daemonize build pid env = .ok started.pid ∧ started.sdElementQueue.pID = pid ∧
      started.logPId = pid ∧ started.pidFile = writePidFile build started.pid env := by
  obtain ⟨daemon, conf, hdaemonize, _, rfl⟩ := main_cases h
  exact ⟨hdaemonize, rfl, rfl, rfl⟩

/-- The threads are started with the host name and with the configuration that was loaded. -/
theorem main_conf {build : Build} {argc : Nat} {pid : Int32} {env : MainEnv}
    {started : Started} {conf : Conf} (h : main build argc pid env = .ok started)
    (hconf : env.loadConf = some conf) :
    started.sdElementQueue =
        ⟨env.hostname, APP_NAME, conf.token, conf.probeID, conf.transportMsgVersion, pid⟩ ∧
      started.senderParams = ⟨conf.engineFQDN, conf.enginePort, conf.transportProto⟩ := by
  obtain ⟨daemon, loaded, _, hloaded, rfl⟩ := main_cases h
  rw [hconf, Option.some.injEq] at hloaded
  rw [hloaded]
  exact ⟨rfl, rfl⟩

/-- What is written to the pid file is the pid of the process that writes it. -/
theorem eq_of_writePidFile {build : Build} {pid written : Int32} {env : MainEnv}
    (h : writePidFile build pid env = some written) : written = pid := by
  cases build with
  | debug => cases h
  | release =>
      simp only [writePidFile] at h
      split at h
      · cases h
        rfl
      · cases h

/-- An incarnation serves after a successful start-up only. -/
theorem daemonStep_serving {build : Build} {argc : Nat} {s : DaemonState} {a : DaemonAction}
    {started : Started} (h : daemonStep build argc s a = .next (.serving started)) :
    ∃ pid env, s = .entering pid ∧ a = .start env ∧ main build argc pid env = .ok started := by
  cases s with
  | entering pid =>
      cases a with
      | start env =>
          refine ⟨pid, env, rfl, rfl, ?_⟩
          simp only [daemonStep] at h
          split at h
          · cases h
          · split at h
            · cases h
            · rename_i hmain
              cases h
              exact hmain
      | stop signum execve => cases h
  | serving before =>
      cases a with
      | start env => cases h
      | stop signum execve =>
          simp only [daemonStep] at h
          split at h
          · cases h
          · split at h <;> cases h
  | ended status => cases a <;> cases h

end AlertProbe
