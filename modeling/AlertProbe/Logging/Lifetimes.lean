import AlertProbe.Model.Log

/-!
# Lifetimes in the log

The daemon is started, restarted, stopped and killed, and its start can fail at
several points.  Its log is divided into lifetimes nevertheless: each of them begins
with the message of a start and has one stop at most.  Behind the stop there is only
what other threads and the signal handlers still log until the process is replaced or
ends.  Every lifetime but the last has its stop, and the pid that a lifetime shows
behind a restart is the one that the daemon had in the lifetime before.

Main results:

- Theorem `mainLog_cases`: what `main` logs.
- Theorem `dividing_step`: every step keeps the division of the log.
- Theorem `log_divided`: the log of every run.
-/

namespace AlertProbe

open Foundations

/-! ## Lifetimes -/

/-- A lifetime of the daemon: the pid that its messages show, its process, and what it logs behind
its start. -/
structure Lifetime where
  pId : Int32
  process : Int32
  messages : List CString
  /-- What is logged behind the stop, if there is one. -/
  stop : Option (List CString)
deriving DecidableEq, Repr

/-- Messages, and a stop with messages behind it, if there is one. -/
def laterMessages (messages : List CString) (stop : Option (List CString)) : List LogMessage :=
  messages.map .other ++ stop.elim [] fun late => .stop :: late.map .other

/-- The messages of the process `process`, which shows the pid `pId`. -/
def loggedBy (pId process : Int32) (log : List LogMessage) : List LoggedMessage :=
  log.map fun message => ⟨pId, process, message⟩

/-- The log of a lifetime. -/
def Lifetime.log (l : Lifetime) : List LoggedMessage :=
  loggedBy l.pId l.process (.start :: laterMessages l.messages l.stop)

/-- What `main` logs in a process of its own, when it does not get as far as its start. -/
def FailedStart (pId : Int32) (log : List LoggedMessage) : Prop :=
  ∃ message, log = [⟨pId, pId, .other message⟩]

/-- The log consists of the logs of the lifetimes, and of the error of a start that failed. -/
structure Divided (s : LoggedDaemon) (lifetimes : List Lifetime) : Prop where
  log : s.log = lifetimes.flatMap Lifetime.log ∨
    ∃ pId failed, s.log = lifetimes.flatMap Lifetime.log ++ failed ∧ FailedStart pId failed ∧
      ∀ before ∈ lifetimes.getLast?, before.stop.isSome ∧ pId = before.process
  /-- Behind a restart a lifetime shows the pid of the process of the one before. -/
  restarts : lifetimes.IsChain fun before after =>
    before.stop.isSome ∧ after.pId = before.process
  serving : s.running = none → ∀ started, s.daemon = .serving started →
    ∃ messages, lifetimes.getLast? = some ⟨started.logPId, started.pid, messages, none⟩
  stopped : s.running = none → (∀ started, s.daemon ≠ .serving started) →
    ∀ last ∈ lifetimes.getLast?, last.stop.isSome

/-! ## Events -/

/-- A start or a stop. -/
def LogMessage.isEvent : LogMessage → Bool
  | .other _ => false
  | .start | .stop => true

/-- Messages are no events. -/
@[simp]
theorem filter_isEvent_map (messages : List CString) :
    (messages.map LogMessage.other).filter LogMessage.isEvent = [] := by
  rw [List.filter_eq_nil_iff]
  intro message hmessage
  obtain ⟨text, -, rfl⟩ := List.mem_map.mp hmessage
  exact Bool.false_ne_true

/-- Where there is no event there are messages. -/
theorem exists_messages {log : List LogMessage} (h : log.filter LogMessage.isEvent = []) :
    ∃ messages : List CString, log = messages.map .other := by
  induction log with
  | nil => exact ⟨[], rfl⟩
  | cons message log ih =>
      cases message with
      | start => cases h
      | stop => cases h
      | other text =>
          obtain ⟨messages, rfl⟩ := ih h
          exact ⟨text :: messages, rfl⟩

/-- Around a stop there are messages. -/
theorem exists_laterMessages {log : List LogMessage}
    (h : log.filter LogMessage.isEvent = [.stop]) :
    ∃ messages late, log = laterMessages messages (some late) := by
  induction log with
  | nil => cases h
  | cons message log ih =>
      cases message with
      | start => cases h
      | stop =>
          obtain ⟨late, rfl⟩ := exists_messages (List.cons.inj h).2
          exact ⟨[], late, rfl⟩
      | other text =>
          obtain ⟨messages, late, rfl⟩ := ih h
          exact ⟨text :: messages, late, rfl⟩

/-- The events that `main` logs behind its start, before the daemon is in the state `next`. -/
def eventsBefore : DaemonState → List LogMessage
  | .serving _ => []
  | .entering _ | .ended _ => [.stop]

/-- A start, the events that belong to the state and any messages. -/
def IsLifetime (next : DaemonState) (log : List LogMessage) : Prop :=
  ∃ later, log = .start :: later ∧ later.filter LogMessage.isEvent = eventsBefore next

/-- A part of a lifetime from its start on. -/
theorem exists_lifetime_of_append {next : DaemonState} {later todo : List LogMessage}
    (h : IsLifetime next (.start :: later ++ todo)) :
    ∃ messages stop, later = laterMessages messages stop := by
  obtain ⟨all, heq, hevents⟩ := h
  obtain rfl : later ++ todo = all := (List.cons.inj heq).2
  rw [List.filter_append] at hevents
  cases hfilter : later.filter LogMessage.isEvent with
  | nil =>
      obtain ⟨messages, rfl⟩ := exists_messages hfilter
      exact ⟨messages, none, (List.append_nil _).symm⟩
  | cons event events =>
      rw [hfilter] at hevents
      cases next with
      | serving started => cases hevents
      | entering pid =>
          obtain ⟨rfl, hnil⟩ := List.cons.inj hevents
          rw [(List.append_eq_nil_iff.mp hnil).1] at hfilter
          obtain ⟨messages, late, rfl⟩ := exists_laterMessages hfilter
          exact ⟨messages, some late, rfl⟩
      | ended status =>
          obtain ⟨rfl, hnil⟩ := List.cons.inj hevents
          rw [(List.append_eq_nil_iff.mp hnil).1] at hfilter
          obtain ⟨messages, late, rfl⟩ := exists_laterMessages hfilter
          exact ⟨messages, some late, rfl⟩

/-- More messages make no other lifetime. -/
theorem IsLifetime.message {next : DaemonState} {later todo : List LogMessage}
    (h : IsLifetime next (.start :: later ++ todo)) (text : CString) :
    IsLifetime next (.start :: later ++ [.other text] ++ todo) := by
  obtain ⟨all, heq, hevents⟩ := h
  obtain rfl : later ++ todo = all := (List.cons.inj heq).2
  refine ⟨later ++ [.other text] ++ todo, rfl, ?_⟩
  rw [← hevents]
  simp [LogMessage.isEvent]

/-! ## What main logs -/

/-- A start and what is logged behind it. -/
def BeginsLifetime (log : List LogMessage) : Prop :=
  ∃ messages : List CString, log = .start :: messages.map .other

/-- The messages of a whole lifetime. -/
def MakesLifetime (log : List LogMessage) : Prop :=
  ∃ messages : List CString, log = .start :: messages.map .other ++ [.stop]

/-- More messages are logged behind a start. -/
theorem BeginsLifetime.append {log : List LogMessage} (h : BeginsLifetime log)
    (messages : List CString) : BeginsLifetime (log ++ messages.map .other) := by
  obtain ⟨before, rfl⟩ := h
  exact ⟨before ++ messages, by simp⟩

/-- A stop ends a lifetime. -/
theorem BeginsLifetime.stop {log : List LogMessage} (h : BeginsLifetime log) :
    MakesLifetime (log ++ [.stop]) := by
  obtain ⟨before, rfl⟩ := h
  exact ⟨before, rfl⟩

/-- So does an error behind which there is a stop. -/
theorem BeginsLifetime.fail {log : List LogMessage} (h : BeginsLifetime log)
    (message : CString) : MakesLifetime (log ++ [.other message, .stop]) := by
  have hfailed := (h.append [message]).stop
  rwa [List.append_assoc] at hfailed

/-- Behind a start the pid file may be missing. -/
theorem beginsLifetime_pidFileLog (build : Build) (env : MainEnv) (texts : MainTexts) :
    BeginsLifetime (.start :: pidFileLog build env texts) := by
  unfold pidFileLog
  split
  · exact ⟨[_], rfl⟩
  · exact ⟨[], rfl⟩

/-- What `main` logs is the beginning of a lifetime when it succeeds.  When it fails it is nothing,
an error of the process itself, or a whole lifetime. -/
theorem mainLog_cases (build : Build) (argc : Nat) (pid : Int32) (env : MainEnv)
    (texts : MainTexts) :
    (∃ started, main build argc pid env = .ok started ∧
      mainProcess build pid env = started.pid ∧
      BeginsLifetime (mainLog build argc pid env texts)) ∨
    ∃ status, main build argc pid env = .error status ∧
      (mainLog build argc pid env texts = [] ∨
        (∃ message, mainLog build argc pid env texts = [.other message] ∧
          mainProcess build pid env = pid) ∨
        MakesLifetime (mainLog build argc pid env texts)) := by
  have hconfigured := (beginsLifetime_pidFileLog build env texts).append texts.loadConf
  have hloaded := hconfigured.append texts.addonManager
  by_cases hargc : 1 < argc
  · exact Or.inr ⟨exitSuccess, by simp [main, hargc], Or.inl (by simp [mainLog, hargc])⟩
  · cases hdaemonize : daemonize build pid env with
    | error status =>
        refine Or.inr ⟨status, by simp [main, hargc, hdaemonize], ?_⟩
        simp only [mainLog, mainProcess, if_neg hargc, hdaemonize]
        split
        · exact Or.inr (Or.inl ⟨_, rfl, trivial⟩)
        · exact Or.inl rfl
    | ok daemon =>
        simp only [main, mainLog, mainProcess, if_neg hargc, hdaemonize]
        cases hconf : env.loadConf with
        | none => exact Or.inr ⟨_, rfl, Or.inr (Or.inr hconfigured.stop)⟩
        | some conf =>
            simp only [reduceCtorEq, if_false]
            by_cases haddons : env.addonManager = 0
            · by_cases hformat : env.formatThread = 0
              · by_cases hsender : env.senderThread = 0
                · simp only [haddons, hformat, hsender, ne_eq, not_true_eq_false, if_false]
                  exact Or.inl ⟨_, rfl, rfl, hloaded⟩
                · simp only [haddons, hformat, hsender, ne_eq, not_true_eq_false,
                    not_false_eq_true, if_false, if_true]
                  exact Or.inr ⟨_, rfl, Or.inr (Or.inr (hloaded.fail _))⟩
              · simp only [haddons, hformat, ne_eq, not_true_eq_false, not_false_eq_true,
                  if_false, if_true]
                exact Or.inr ⟨_, rfl, Or.inr (Or.inr (hloaded.fail _))⟩
            · simp only [haddons, ne_eq, not_false_eq_true, if_true]
              exact Or.inr ⟨_, rfl, Or.inr (Or.inr hloaded.stop)⟩

/-! ## Steps -/

/-- What `main` has logged and has still to log on its way. -/
structure MainRun.Logs (run : MainRun) (done : List LogMessage) : Prop where
  begun : run.begun = true ↔ ∃ later, done = .start :: later
  form : IsLifetime run.next (done ++ run.todo) ∨
    (∃ status, run.next = .ended status) ∧
      (done ++ run.todo = [] ∨
        run.process = run.pId ∧ ∃ message, done ++ run.todo = [.other message])
  serving : ∀ started, run.next = .serving started →
    started.logPId = run.pId ∧ started.pid = run.process
  entering : ∀ pid, run.next = .entering pid → pid = run.process

/-- When `main` is called, nothing is logged yet. -/
theorem MainRun.Logs.start {build : Build} {argc : Nat} {pid : Int32} {env : MainEnv}
    {next : DaemonState} (h : daemonStep build argc (.entering pid) (.start env) = .next next)
    (texts : MainTexts) :
    MainRun.Logs ⟨pid, mainProcess build pid env, mainLog build argc pid env texts, next, false⟩
      [] := by
  simp only [daemonStep] at h
  split at h
  · cases h
  · rcases mainLog_cases build argc pid env texts with
      ⟨started, hmain, hprocess, messages, hlog⟩ | ⟨status, hmain, hlog⟩
    · rw [hmain] at h
      cases h
      refine ⟨by simp, Or.inl ⟨_, hlog, filter_isEvent_map messages⟩, ?_, by simp⟩
      intro served hserved
      cases hserved
      exact ⟨(main_eq_ok hmain).2.2.1, hprocess.symm⟩
    · rw [hmain] at h
      cases h
      refine ⟨by simp, ?_, by simp, by simp⟩
      rcases hlog with hnil | ⟨message, hlog, hprocess⟩ | ⟨messages, hlog⟩
      · exact Or.inr ⟨⟨status, rfl⟩, Or.inl hnil⟩
      · exact Or.inr ⟨⟨status, rfl⟩, Or.inr ⟨hprocess, message, hlog⟩⟩
      · refine Or.inl ⟨messages.map LogMessage.other ++ [LogMessage.stop], hlog, ?_⟩
        rw [List.filter_append, filter_isEvent_map]
        rfl

/-- When a signal has ended the threads, the stop is still to be logged. -/
theorem MainRun.Logs.stop {build : Build} {argc : Nat} {started : Started} {signum : Int}
    {execve : List Bool} {next : DaemonState}
    (h : daemonStep build argc (.serving started) (.stop signum execve) = .next next)
    (messages : List CString) :
    MainRun.Logs ⟨started.logPId, started.pid, [.stop], next, true⟩
      (.start :: messages.map .other) := by
  have hform : (messages.map LogMessage.other ++ [LogMessage.stop]).filter LogMessage.isEvent =
      [.stop] := by
    rw [List.filter_append, filter_isEvent_map]
    rfl
  have hbegun : true = true ↔ ∃ later : List LogMessage,
      LogMessage.start :: messages.map .other = .start :: later := iff_of_true rfl ⟨_, rfl⟩
  simp only [daemonStep] at h
  split at h
  · cases h
  · split at h
    · cases h
      refine ⟨hbegun, Or.inl ⟨_, rfl, hform⟩, by simp, ?_⟩
      intro pid hpid
      cases hpid
      rfl
    · cases h
      exact ⟨hbegun, Or.inl ⟨_, rfl, hform⟩, by simp, by simp⟩

/-- `main` logs its next message. -/
theorem MainRun.Logs.record {run : MainRun} {done : List LogMessage} (h : run.Logs done)
    {message : LogMessage} {todo : List LogMessage} (htodo : run.todo = message :: todo) :
    MainRun.Logs { run with todo := todo, begun := run.begun || message == .start }
      (done ++ [message]) := by
  have hform := h.form
  rw [htodo] at hform
  refine ⟨?_, by simpa using hform, h.serving, h.entering⟩
  rw [Bool.or_eq_true, beq_iff_eq, h.begun]
  cases done with
  | nil => simp
  | cons first later =>
      simp only [List.cons.injEq, List.cons_append, exists_and_left, exists_eq', and_true]
      refine ⟨fun hstart => hstart.elim id fun hmessage => ?_, Or.inl⟩
      -- the start is the first message of a lifetime
      subst hmessage
      rcases hform with ⟨all, hall, -⟩ | ⟨-, hnil | ⟨-, text, htext⟩⟩
      · exact (List.cons.inj hall).1
      · cases hnil
      · cases (List.append_eq_nil_iff.mp (List.cons.inj htext).2).2

/-- Behind the start there are messages, and one stop at most. -/
theorem MainRun.Logs.exists_laterMessages {run : MainRun} {later : List LogMessage}
    (h : run.Logs (.start :: later)) : ∃ messages stop, later = laterMessages messages stop := by
  rcases h.form with hlifetime | ⟨-, hnil | ⟨-, message, hmessage⟩⟩
  · exact exists_lifetime_of_append hlifetime
  · cases hnil
  · cases hmessage

/-- Another thread or a signal handler logs a message. -/
theorem MainRun.Logs.message {run : MainRun} {later : List LogMessage}
    (h : run.Logs (.start :: later)) (text : CString) :
    run.Logs (.start :: later ++ [.other text]) := by
  refine ⟨iff_of_true (h.begun.mpr ⟨_, rfl⟩) ⟨_, rfl⟩, ?_, h.serving, h.entering⟩
  rcases h.form with hlifetime | ⟨-, hnil | ⟨-, message, hmessage⟩⟩
  · exact Or.inl (hlifetime.message text)
  · cases hnil
  · cases hmessage

/-- What is logged behind the lifetimes that have ended, by a process that shows the pid `pId`. -/
def Current (s : LoggedDaemon) (pId : Int32) (current : List LoggedMessage) : Prop :=
  match s.running with
  | some run => run.pId = pId ∧ ∃ done, current = loggedBy pId run.process done ∧ run.Logs done
  | none =>
      match s.daemon with
      | .entering pid => pid = pId ∧ current = []
      | .serving started =>
          started.logPId = pId ∧
            ∃ messages, current = Lifetime.log ⟨pId, started.pid, messages, none⟩
      | .ended _ => current = [] ∨ FailedStart pId current

/-- The log consists of the lifetimes that have ended and of what is logged behind them. -/
structure Dividing (s : LoggedDaemon) (ended : List Lifetime) (pId : Int32)
    (current : List LoggedMessage) : Prop where
  log : s.log = ended.flatMap Lifetime.log ++ current
  restarts : ended.IsChain fun before after => before.stop.isSome ∧ after.pId = before.process
  last : ∀ before ∈ ended.getLast?, before.stop.isSome ∧ pId = before.process
  current : Current s pId current

/-- A lifetime behind those that have ended. -/
theorem isChain_snoc {lifetimes : List Lifetime} {l : Lifetime}
    (h : lifetimes.IsChain fun before after => before.stop.isSome ∧ after.pId = before.process)
    (hlast : ∀ before ∈ lifetimes.getLast?, before.stop.isSome ∧ l.pId = before.process) :
    (lifetimes ++ [l]).IsChain fun before after =>
      before.stop.isSome ∧ after.pId = before.process := by
  rw [List.isChain_append]
  refine ⟨h, List.isChain_singleton l, ?_⟩
  intro before hbefore after hafter
  rw [List.head?_cons, Option.mem_some_iff] at hafter
  rw [← hafter]
  exact hlast before hbefore

section

variable {s : LoggedDaemon} {ended : List Lifetime} {pId : Int32} {current : List LoggedMessage}
  (h : Dividing s ended pId current)

include h

/-- More is logged behind the lifetimes that have ended. -/
theorem Dividing.append {s' : LoggedDaemon} {more : List LoggedMessage}
    (hlog : s'.log = s.log ++ more) (hcurrent : Current s' pId (current ++ more)) :
    Dividing s' ended pId (current ++ more) where
  log := by rw [hlog, h.log, List.append_assoc]
  restarts := h.restarts
  last := h.last
  current := hcurrent

/-- Nothing is logged. -/
theorem Dividing.silent {s' : LoggedDaemon} (hlog : s'.log = s.log)
    (hcurrent : Current s' pId current) : Dividing s' ended pId current where
  log := hlog.trans h.log
  restarts := h.restarts
  last := h.last
  current := hcurrent

/-- A lifetime with a stop has ended. -/
theorem Dividing.finish {process : Int32} {messages late : List CString}
    (hcurrent : current = Lifetime.log ⟨pId, process, messages, some late⟩) {s' : LoggedDaemon}
    (hlog : s'.log = s.log) (hnext : Current s' process []) :
    Dividing s' (ended ++ [⟨pId, process, messages, some late⟩]) process [] where
  log := by simp [hlog, h.log, hcurrent]
  restarts := isChain_snoc h.restarts h.last
  last := by
    intro before hbefore
    rw [List.getLast?_concat, Option.mem_some_iff] at hbefore
    rw [← hbefore]
    exact ⟨rfl, rfl⟩
  current := hnext

omit h in
/-- `main` goes on with nothing left to log. -/
theorem Dividing.proceed {run : MainRun} {done : List LogMessage}
    (h : Dividing s ended run.pId (loggedBy run.pId run.process done)) (hlogs : run.Logs done)
    (htodo : run.todo = []) :
    ∃ ended' pId' current',
      Dividing { s with daemon := run.next, running := none } ended' pId' current' := by
  have hform := hlogs.form
  rw [htodo, List.append_nil] at hform
  rcases hform with ⟨later, rfl, hevents⟩ | ⟨⟨status, hnext⟩, hfailed⟩
  · cases hnext : run.next with
    | serving started =>
        rw [hnext] at hevents
        obtain ⟨messages, rfl⟩ := exists_messages hevents
        obtain ⟨hpId, hprocess⟩ := hlogs.serving started hnext
        refine ⟨ended, run.pId, _, h.silent rfl ⟨hpId, messages, ?_⟩⟩
        rw [Lifetime.log, laterMessages, hprocess]
        simp
    | entering pid =>
        rw [hnext] at hevents
        obtain ⟨messages, late, rfl⟩ := exists_laterMessages hevents
        exact ⟨_, run.process, [], h.finish rfl rfl ⟨hlogs.entering pid hnext, rfl⟩⟩
    | ended status =>
        rw [hnext] at hevents
        obtain ⟨messages, late, rfl⟩ := exists_laterMessages hevents
        exact ⟨_, run.process, [], h.finish rfl rfl (Or.inl rfl)⟩
  · refine ⟨ended, run.pId, _, h.silent rfl ?_⟩
    simp only [Current, hnext]
    rcases hfailed with rfl | ⟨hprocess, message, rfl⟩
    · exact Or.inl rfl
    · exact Or.inr ⟨message, by rw [hprocess]; rfl⟩

/-- What a step of `main` on its way leaves of the log. -/
theorem Dividing.runningStep {run : MainRun} (hrunning : s.running = some run)
    {a : LoggedAction} {s' : LoggedDaemon} (hstep : runningStep s run a = .next s') :
    ∃ ended' pId' current', Dividing s' ended' pId' current' := by
  have hcurrent := h.current
  rw [Current, hrunning] at hcurrent
  obtain ⟨rfl, done, rfl, hlogs⟩ := hcurrent
  cases a with
  | record =>
      simp only [AlertProbe.runningStep] at hstep
      split at hstep
      · cases hstep
      · rename_i message todo htodo
        cases hstep
        refine ⟨ended, run.pId, _, h.append rfl ⟨rfl, done ++ [message], ?_, hlogs.record htodo⟩⟩
        simp [loggedBy]
  | proceed =>
      simp only [AlertProbe.runningStep] at hstep
      split at hstep
      · rename_i htodo
        cases hstep
        exact h.proceed hlogs htodo
      · cases hstep
  | message text =>
      simp only [AlertProbe.runningStep] at hstep
      split at hstep
      · rename_i hbegun
        cases hstep
        obtain ⟨later, rfl⟩ := hlogs.begun.mp hbegun
        have hmore : Current { s with log := s.log ++ [⟨run.pId, run.process, .other text⟩] }
            run.pId (loggedBy run.pId run.process (.start :: later) ++
              [⟨run.pId, run.process, .other text⟩]) := by
          rw [Current, hrunning]
          exact ⟨rfl, .start :: later ++ [.other text], by simp [loggedBy], hlogs.message text⟩
        exact ⟨ended, run.pId, _, h.append rfl hmore⟩
      · cases hstep
  | kill =>
      cases hstep
      exact ⟨ended, run.pId, _, h.silent rfl h.current⟩
  | main env texts => cases hstep
  | stop signum execve => cases hstep

/-- What a step between the calls of `main`, or while the threads run, leaves of the log. -/
theorem Dividing.idleStep {build : Build} {argc : Nat} (hrunning : s.running = none)
    {a : LoggedAction} {s' : LoggedDaemon} (hstep : idleStep build argc s a = .next s') :
    ∃ ended' pId' current', Dividing s' ended' pId' current' := by
  have hcurrent := h.current
  rw [Current, hrunning] at hcurrent
  unfold AlertProbe.idleStep at hstep
  split at hstep
  · rename_i pid env texts hs
    rw [hs] at hstep hcurrent
    obtain ⟨rfl, rfl⟩ := hcurrent
    obtain ⟨next, hnext, rfl⟩ := Outcome.map_eq_next hstep
    exact ⟨ended, pid, [], h.silent rfl ⟨rfl, [], rfl, .start hnext texts⟩⟩
  · rename_i started text hs
    rw [hs] at hcurrent
    obtain ⟨rfl, messages, rfl⟩ := hcurrent
    cases hstep
    have hmore : Current
        { s with log := s.log ++ [⟨started.logPId, started.pid, .other text⟩] } started.logPId
          (Lifetime.log ⟨started.logPId, started.pid, messages, none⟩ ++
            [⟨started.logPId, started.pid, .other text⟩]) := by
      simp only [Current, hrunning, hs]
      exact ⟨trivial, messages ++ [text], by simp [Lifetime.log, laterMessages, loggedBy]⟩
    exact ⟨ended, started.logPId, _, h.append rfl hmore⟩
  · rename_i started signum execve hs
    rw [hs] at hstep hcurrent
    obtain ⟨rfl, messages, rfl⟩ := hcurrent
    obtain ⟨next, hnext, rfl⟩ := Outcome.map_eq_next hstep
    refine ⟨ended, started.logPId, _, h.silent rfl ⟨rfl, .start :: messages.map .other, ?_, ?_⟩⟩
    · simp [Lifetime.log, laterMessages]
    · exact .stop hnext messages
  · cases hstep
    exact ⟨ended, pId, current, h.silent rfl h.current⟩
  · cases hstep
    exact ⟨ended, pId, current, h.silent rfl h.current⟩
  · cases hstep

/-- Every step keeps the log divided into lifetimes. -/
theorem dividing_step {build : Build} {argc : Nat} {a : LoggedAction} {s' : LoggedDaemon}
    (hstep : loggedStep build argc s a = .next s') :
    ∃ ended' pId' current', Dividing s' ended' pId' current' := by
  unfold loggedStep at hstep
  split at hstep
  · cases hstep
  · split at hstep
    · rename_i run hrunning
      exact h.runningStep hrunning hstep
    · rename_i hrunning
      exact h.idleStep hrunning hstep

/-- What is logged behind the lifetimes that have ended is another one, so far. -/
theorem Dividing.divided : ∃ lifetimes, Divided s lifetimes := by
  have hcurrent := h.current
  unfold Current at hcurrent
  split at hcurrent
  · rename_i run hrunning
    obtain ⟨rfl, done, rfl, hlogs⟩ := hcurrent
    have hidle : ∀ {P : Prop}, s.running = none → P := by
      intro P hnone
      rw [hrunning] at hnone
      cases hnone
    by_cases hbegun : ∃ later, done = .start :: later
    · obtain ⟨later, rfl⟩ := hbegun
      obtain ⟨messages, stop, rfl⟩ := hlogs.exists_laterMessages
      refine ⟨ended ++ [⟨run.pId, run.process, messages, stop⟩], Or.inl ?_,
        isChain_snoc h.restarts h.last, hidle, hidle⟩
      rw [h.log, List.flatMap_append, List.flatMap_singleton, Lifetime.log]
    · -- nothing, or the error of a process without a start
      cases done with
      | nil =>
          exact ⟨ended, Or.inl (h.log.trans (List.append_nil _)), h.restarts, hidle, hidle⟩
      | cons first later =>
          rcases hlogs.form with ⟨all, hall, -⟩ | ⟨-, hnil | ⟨hprocess, message, hmessage⟩⟩
          · exact absurd ⟨later, by rw [(List.cons.inj hall).1]⟩ hbegun
          · cases hnil
          · obtain ⟨rfl, hrest⟩ := List.cons.inj hmessage
            rw [(List.append_eq_nil_iff.mp hrest).1] at h
            refine ⟨ended, Or.inr ⟨run.pId, _, h.log, ⟨message, ?_⟩, h.last⟩, h.restarts, hidle,
              hidle⟩
            rw [hprocess]
            rfl
  · rename_i hrunning
    split at hcurrent
    · rename_i pid hs
      obtain ⟨rfl, rfl⟩ := hcurrent
      refine ⟨ended, Or.inl (h.log.trans (List.append_nil _)), h.restarts, ?_, ?_⟩
      · intro _ started hserving
        rw [hs] at hserving
        cases hserving
      · exact fun _ _ last hlast => (h.last last hlast).1
    · rename_i started hs
      obtain ⟨rfl, messages, rfl⟩ := hcurrent
      refine ⟨ended ++ [⟨started.logPId, started.pid, messages, none⟩], Or.inl ?_,
        isChain_snoc h.restarts h.last, ?_, ?_⟩
      · rw [h.log, List.flatMap_append, List.flatMap_singleton]
      · intro _ served hserved
        rw [hs] at hserved
        cases hserved
        exact ⟨messages, List.getLast?_concat ..⟩
      · intro _ hnot
        exact absurd hs (hnot started)
    · rename_i status hs
      have hserving : s.running = none → ∀ started, s.daemon = .serving started →
          ∃ messages, ended.getLast? =
            some ⟨started.logPId, started.pid, messages, none⟩ := by
        intro _ started hserving
        rw [hs] at hserving
        cases hserving
      have hstopped : s.running = none → (∀ started, s.daemon ≠ .serving started) →
          ∀ last ∈ ended.getLast?, last.stop.isSome :=
        fun _ _ last hlast => (h.last last hlast).1
      rcases hcurrent with rfl | hfailed
      · exact ⟨ended, Or.inl (h.log.trans (List.append_nil _)), h.restarts, hserving, hstopped⟩
      · exact ⟨ended, Or.inr ⟨pId, current, h.log, hfailed, h.last⟩, h.restarts, hserving,
          hstopped⟩

end

/-- In every run of the daemon, with all its restarts, and with whatever its threads and its signal
handlers log in between, the log is divided into lifetimes.  Each of them begins with a start; at
most one stop follows, and behind that only messages.  Every lifetime but the last one has its
stop, and the last one too while the daemon neither serves nor is on its way, unless it was killed
there; behind a restart a lifetime shows the pid of the process of the one before. -/
theorem log_divided {build : Build} {argc : Nat} {pid : Int32} {s : LoggedDaemon}
    (h : (loggedDaemon build argc pid).Reachable s) : ∃ lifetimes, Divided s lifetimes := by
  have hdividing : ∃ ended pId current, Dividing s ended pId current := by
    refine h.invariant (P := fun s => ∃ ended pId current, Dividing s ended pId current) ?_ ?_
    · exact ⟨[], pid, [], rfl, List.isChain_nil, fun _ => nofun, rfl, rfl⟩
    · rintro s a s' ⟨ended, pId, current, hdividing⟩ hstep
      exact dividing_step hdividing hstep
  obtain ⟨ended, pId, current, hdividing⟩ := hdividing
  exact hdividing.divided

/-- The errors of an example run. -/
def exampleTexts : MainTexts where
  chdirError := []
  pidFileError := []
  threadError := ascii "Resource temporarily unavailable"
  loadConf := []
  addonManager := []

/-- The daemon is started by process 100, logs a signal and is restarted; a second signal comes
behind the stop.  Then the sender thread cannot be created. -/
theorem log_divided_run :
    ∃ s lifetimes, Divided s lifetimes ∧ s.daemon = .ended exitFailure ∧
      s.log.map (fun logged => (logged.pId, logged.message)) =
        [(100, .start), (100, .other (ascii "Signal: 1")), (100, .stop),
          (100, .other (ascii "Signal: 15")), (102, .start),
          (102, .other (ascii "Critical: Resource temporarily unavailable: senderThread")),
          (102, .stop)] := by
  have hrun : (loggedDaemon .release 1 100).EndsIn (loggedDaemon .release 1 100).initial
      [.main (exampleMainEnv 101 102) exampleTexts, .record, .proceed,
        .message (ascii "Signal: 1"), .stop SIGHUP [true], .record,
        .message (ascii "Signal: 15"), .proceed,
        .main { exampleMainEnv 103 104 with senderThread := 11 } exampleTexts,
        .record, .record, .record, .proceed]
      (fun s => s.daemon = .ended exitFailure ∧
        s.log.map (fun logged => (logged.pId, logged.message)) =
          [(100, .start), (100, .other (ascii "Signal: 1")), (100, .stop),
            (100, .other (ascii "Signal: 15")), (102, .start),
            (102, .other (ascii "Critical: Resource temporarily unavailable: senderThread")),
            (102, .stop)]) := by
    decide +kernel
  obtain ⟨s, hs, hended, hlog⟩ := Machine.exists_reachable_of_endsIn hrun
  obtain ⟨lifetimes, hdivided⟩ := log_divided hs
  exact ⟨s, lifetimes, hdivided, hended, hlog⟩

end AlertProbe
