import AlertProbe.Model.Daemon

/-!
# Signals

`signalsHandler`, `signalHandling` and `waitForShutdown` of `signals.c`, and the end of
`main`, as one machine.  A step is one call of `signal`, one assignment of a file-level
pointer, the delivery of a signal, or one read, write or `pthread_cancel` of a handler.

A signal is delivered to any thread, and its handler runs there until it returns or until
another signal is delivered to the same thread.  `signal` blocks only the signal that is
being handled, and only in the thread that handles it.  A dereference of NULL is undefined.
`g_error` ends the process; the `SIGABRT` that it may raise on the way is a delivery like
any other.  That a cancelled addon thread ends is not modelled here.

Main results:

- Theorem `signalStep_moves`: who moves in a step that is not blocked.
- Theorem `signals_cases`: what a step can do, one constructor for each program point.
- Theorem `signals_undefined`: which steps dereference NULL.
- Theorem `signalsHandler_run`: the state in which `signalsHandler` returns.
-/

namespace AlertProbe

open Foundations

/-! ## Signal numbers -/

def SIGKILL : Int := 9
def SIGPIPE : Int := 13
def SIGALRM : Int := 14
def SIGTERM : Int := 15
def SIGCHLD : Int := 17
def SIGCLD : Int := SIGCHLD
def SIGCONT : Int := 18
def SIGSTOP : Int := 19
def SIGTSTP : Int := 20
def SIGTTIN : Int := 21
def SIGTTOU : Int := 22
def SIGURG : Int := 23
def SIGVTALRM : Int := 26
def SIGPROF : Int := 27
def SIGWINCH : Int := 28
def SIGIO : Int := 29
def SIGPOLL : Int := SIGIO
def SIGSYS : Int := 31

/-- `ignored`, the signals whose handling stays as it is. -/
def ignored : List Int :=
  [SIGSTOP, SIGKILL, SIGCHLD, SIGCLD, SIGIO, SIGPOLL, SIGSTOP, SIGTSTP, SIGCONT, SIGTTIN,
    SIGTTOU, SIGURG, SIGWINCH]

/-- The loop over `ignored`. -/
def isIgnored (i : Int) : Bool :=
  ignored.any fun j => i == j

/-! ## States -/

/-- Whether a file-level pointer has been assigned. -/
inductive Pointer where
  | null
  | set
deriving DecidableEq, Repr

/-- What a handler logs. -/
inductive SignalLog where
  | error (signum : Int)
  | message (signum : Int)
  | critical (signum : Int)
deriving DecidableEq, Repr

/-- Program points of `signalHandling`. -/
inductive HandlerPC where
  | log
  | test
  | assign
  | cancel (i : Nat)
deriving DecidableEq, Repr

/-- A call of `signalHandling` that has not returned. -/
structure Handler where
  thread : Nat
  signum : Int
  pc : HandlerPC
deriving DecidableEq, Repr

/-- Where `main` stands, from its call of `signalsHandler` on.  `store` has the result of
`waitForShutdown` at hand. -/
inductive MainPC where
  | install (i : Int)
  | assignThreadIdentifiers
  | waitForShutdown
  | store (returned : Int)
  | testSignum
  | decided (restarts : Bool)
deriving DecidableEq, Repr

/-- The state of the process as far as signals go.  The thread of `main` is 0. -/
structure SignalState where
  main : MainPC
  /-- Signals whose handler is `signalHandling`. -/
  installed : List Int
  signum : Pointer
  threadIdentifiers : Pointer
  /-- The variable `signum` of `main`. -/
  value : Int
  /-- Handlers that run, the one that was started last first. -/
  handlers : List Handler
  /-- Calls of `pthread_cancel`, by the index of the addon thread. -/
  cancels : List Nat
  /-- What handlers assigned to `*signum`. -/
  assigned : List Int
  logs : List SignalLog
  /-- The process has ended. -/
  ended : Bool
deriving DecidableEq, Repr

/-- `main` calls `signalsHandler`. -/
def SignalState.start : SignalState where
  main := .install 1
  installed := []
  signum := .null
  threadIdentifiers := .null
  value := 0
  handlers := []
  cancels := []
  assigned := []
  logs := []
  ended := false

/-- The signals that `signalsHandler` installs its handler for. -/
def handledSignals : List Int :=
  ((List.range 30).map fun k => (k : Int) + 1).filter fun i => !isIgnored i

/-- `signalsHandler` has returned. -/
def SignalState.completed : SignalState :=
  { SignalState.start with
    main := .waitForShutdown
    installed := handledSignals
    signum := .set
    threadIdentifiers := .set }

/-! ## Steps -/

/-- A step of `main`.  The format thread and the sender thread, which `waitForShutdown` joins,
end only once they have read that `*signum` is not zero. -/
def mainStep (s : SignalState) : Outcome SignalState :=
  match s.main with
  | .install i =>
      if i < SIGSYS then .next
        { s with
          installed := if isIgnored i then s.installed else s.installed ++ [i]
          main := .install (i + 1) }
      else .next { s with signum := .set, main := .assignThreadIdentifiers }
  | .assignThreadIdentifiers =>
      .next { s with threadIdentifiers := .set, main := .waitForShutdown }
  | .waitForShutdown =>
      if s.threadIdentifiers = .null ∨ s.signum = .null then .undefined
      else if s.value = 0 then .blocked
      else .next { s with main := .store s.value }
  | .store returned => .next { s with value := returned, main := .testSignum }
  | .testSignum => .next { s with main := .decided (s.value == SIGHUP) }
  | .decided _ => .blocked

/-- What `signalHandling` logs for a signal other than `SIGPIPE`. -/
def signalLog (signum : Int) : SignalLog :=
  if signum = SIGTERM ∨ signum = SIGHUP ∨ signum = SIGALRM ∨ signum = SIGVTALRM ∨
      signum = SIGPROF then .message signum
  else .critical signum

/-- A step of `signalHandling`, in the handler `h` between those started later and those
started earlier. -/
def signalHandling (nbAddonsThreads : Nat) (newer : List Handler) (h : Handler)
    (older : List Handler) (s : SignalState) : Outcome SignalState :=
  match h.pc with
  | .log =>
      if h.signum = SIGPIPE then .next
        { s with logs := s.logs ++ [.error h.signum], ended := true }
      else .next
        { s with
          handlers := newer ++ { h with pc := .test } :: older
          logs := s.logs ++ [signalLog h.signum] }
  | .test =>
      if s.signum = .null then .undefined
      else if s.value = 0 then .next
        { s with handlers := newer ++ { h with pc := .assign } :: older }
      else .next { s with handlers := newer ++ older }
  | .assign =>
      if s.signum = .null then .undefined
      else .next
        { s with
          value := h.signum
          handlers := newer ++ { h with pc := .cancel 0 } :: older
          assigned := s.assigned ++ [h.signum] }
  | .cancel i =>
      if s.threadIdentifiers = .null then .undefined
      else if i < nbAddonsThreads then .next
        { s with
          handlers := newer ++ { h with pc := .cancel (i + 1) } :: older
          cancels := s.cancels ++ [i] }
      else .next { s with handlers := newer ++ older }

/-- Who moves next. -/
inductive SignalAction where
  | main
  /-- A signal is delivered to a thread. -/
  | deliver (thread : Nat) (signum : Int)
  /-- The handler at a position of `handlers` moves. -/
  | handler (i : Nat)
deriving DecidableEq, Repr

/-- A step of the process.  In each thread only the handler that was started last runs, and the
program of a thread only when it runs no handler. -/
def signalStep (nbAddonsThreads : Nat) (s : SignalState) (a : SignalAction) :
    Outcome SignalState :=
  if s.ended = true then .blocked
  else
    match a with
    | .main => if ∀ h ∈ s.handlers, h.thread ≠ 0 then mainStep s else .blocked
    | .deliver thread signum =>
        if signum ∈ s.installed ∧ ∀ h ∈ s.handlers, h.thread = thread → h.signum ≠ signum then
          .next { s with handlers := ⟨thread, signum, .log⟩ :: s.handlers }
        else .blocked
    | .handler i =>
        match s.handlers.drop i with
        | [] => .blocked
        | h :: older =>
            if ∀ h' ∈ s.handlers.take i, h'.thread ≠ h.thread then
              signalHandling nbAddonsThreads (s.handlers.take i) h older s
            else .blocked

/-- The process as a machine. -/
def signals (nbAddonsThreads : Nat) : Machine SignalState SignalAction where
  initial := SignalState.start
  step := signalStep nbAddonsThreads

/-! ## What a step can do -/

/-- The steps of `main`. -/
inductive MainStep (s : SignalState) : SignalState → Prop where
  | install {i : Int} (hpc : s.main = .install i) (hlt : i < SIGSYS) :
      MainStep s
        { s with
          installed := if isIgnored i then s.installed else s.installed ++ [i]
          main := .install (i + 1) }
  | assignSignum {i : Int} (hpc : s.main = .install i) (hend : SIGSYS ≤ i) :
      MainStep s { s with signum := .set, main := .assignThreadIdentifiers }
  | assignThreadIdentifiers (hpc : s.main = .assignThreadIdentifiers) :
      MainStep s { s with threadIdentifiers := .set, main := .waitForShutdown }
  | join (hpc : s.main = .waitForShutdown) (hvalue : s.value ≠ 0) :
      MainStep s { s with main := .store s.value }
  | store {returned : Int} (hpc : s.main = .store returned) :
      MainStep s { s with value := returned, main := .testSignum }
  | decide (hpc : s.main = .testSignum) :
      MainStep s { s with main := .decided (s.value == SIGHUP) }

/-- The steps of the handler `h` between those started later and those started earlier. -/
inductive HandlerStep (nbAddonsThreads : Nat) (newer : List Handler) (h : Handler)
    (older : List Handler) (s : SignalState) : SignalState → Prop where
  | abort (hpc : h.pc = .log) (hpipe : h.signum = SIGPIPE) :
      HandlerStep nbAddonsThreads newer h older s
        { s with logs := s.logs ++ [.error h.signum], ended := true }
  | log (hpc : h.pc = .log) (hpipe : h.signum ≠ SIGPIPE) :
      HandlerStep nbAddonsThreads newer h older s
        { s with
          handlers := newer ++ { h with pc := .test } :: older
          logs := s.logs ++ [signalLog h.signum] }
  | sawZero (hpc : h.pc = .test) (hset : s.signum = .set) (hvalue : s.value = 0) :
      HandlerStep nbAddonsThreads newer h older s
        { s with handlers := newer ++ { h with pc := .assign } :: older }
  | sawSignal (hpc : h.pc = .test) (hset : s.signum = .set) (hvalue : s.value ≠ 0) :
      HandlerStep nbAddonsThreads newer h older s { s with handlers := newer ++ older }
  | assign (hpc : h.pc = .assign) (hset : s.signum = .set) :
      HandlerStep nbAddonsThreads newer h older s
        { s with
          value := h.signum
          handlers := newer ++ { h with pc := .cancel 0 } :: older
          assigned := s.assigned ++ [h.signum] }
  | cancel {i : Nat} (hpc : h.pc = .cancel i) (hset : s.threadIdentifiers = .set)
      (hlt : i < nbAddonsThreads) :
      HandlerStep nbAddonsThreads newer h older s
        { s with
          handlers := newer ++ { h with pc := .cancel (i + 1) } :: older
          cancels := s.cancels ++ [i] }
  | finish {i : Nat} (hpc : h.pc = .cancel i) (hset : s.threadIdentifiers = .set)
      (hend : nbAddonsThreads ≤ i) :
      HandlerStep nbAddonsThreads newer h older s { s with handlers := newer ++ older }

/-- The steps of the process. -/
inductive SignalStep (nbAddonsThreads : Nat) (s : SignalState) :
    SignalAction → SignalState → Prop where
  | main {s' : SignalState} (hthread : ∀ h ∈ s.handlers, h.thread ≠ 0) (h : MainStep s s') :
      SignalStep nbAddonsThreads s .main s'
  | deliver {thread : Nat} {signum : Int} (hinstalled : signum ∈ s.installed)
      (hunblocked : ∀ h ∈ s.handlers, h.thread = thread → h.signum ≠ signum) :
      SignalStep nbAddonsThreads s (.deliver thread signum)
        { s with handlers := ⟨thread, signum, .log⟩ :: s.handlers }
  | handler {newer older : List Handler} {h : Handler} {s' : SignalState}
      (hsplit : s.handlers = newer ++ h :: older)
      (hlast : ∀ h' ∈ newer, h'.thread ≠ h.thread)
      (hstep : HandlerStep nbAddonsThreads newer h older s s') :
      SignalStep nbAddonsThreads s (.handler newer.length) s'

/-- `main` makes one of its steps. -/
theorem mainStep_cases {s s' : SignalState} (h : mainStep s = .next s') : MainStep s s' := by
  unfold mainStep at h
  split at h
  · rename_i i hpc
    by_cases hlt : i < SIGSYS
    · rw [if_pos hlt] at h
      cases h
      exact .install hpc hlt
    · rw [if_neg hlt] at h
      cases h
      exact .assignSignum hpc (not_lt.mp hlt)
  · rename_i hpc
    cases h
    exact .assignThreadIdentifiers hpc
  · rename_i hpc
    split at h
    · cases h
    · by_cases hvalue : s.value = 0
      · rw [if_pos hvalue] at h
        cases h
      · rw [if_neg hvalue] at h
        cases h
        exact .join hpc hvalue
  · rename_i hpc
    cases h
    exact .store hpc
  · rename_i hpc
    cases h
    exact .decide hpc
  · cases h

/-- A pointer that is not NULL has been assigned. -/
theorem Pointer.ne_null {pointer : Pointer} : pointer ≠ .null ↔ pointer = .set := by
  cases pointer <;> decide

/-- A handler makes one of its steps. -/
theorem signalHandling_cases {nbAddonsThreads : Nat} {newer older : List Handler} {h : Handler}
    {s s' : SignalState} (hstep : signalHandling nbAddonsThreads newer h older s = .next s') :
    HandlerStep nbAddonsThreads newer h older s s' := by
  unfold signalHandling at hstep
  split at hstep
  · rename_i hpc
    by_cases hpipe : h.signum = SIGPIPE
    · rw [if_pos hpipe] at hstep
      cases hstep
      exact .abort hpc hpipe
    · rw [if_neg hpipe] at hstep
      cases hstep
      exact .log hpc hpipe
  · rename_i hpc
    split at hstep
    · cases hstep
    · rename_i hset
      by_cases hvalue : s.value = 0
      · rw [if_pos hvalue] at hstep
        cases hstep
        exact .sawZero hpc (Pointer.ne_null.mp hset) hvalue
      · rw [if_neg hvalue] at hstep
        cases hstep
        exact .sawSignal hpc (Pointer.ne_null.mp hset) hvalue
  · rename_i hpc
    split at hstep
    · cases hstep
    · rename_i hset
      cases hstep
      exact .assign hpc (Pointer.ne_null.mp hset)
  · rename_i i hpc
    split at hstep
    · cases hstep
    · rename_i hset
      by_cases hlt : i < nbAddonsThreads
      · rw [if_pos hlt] at hstep
        cases hstep
        exact .cancel hpc (Pointer.ne_null.mp hset) hlt
      · rw [if_neg hlt] at hstep
        cases hstep
        exact .finish hpc (Pointer.ne_null.mp hset) (not_lt.mp hlt)

/-- The handlers around the one at a position. -/
theorem handlers_split {handlers : List Handler} {i : Nat} {h : Handler} {older : List Handler}
    (hdrop : handlers.drop i = h :: older) :
    handlers = handlers.take i ++ h :: older ∧ (handlers.take i).length = i := by
  constructor
  · rw [← hdrop, List.take_append_drop]
  · have hlength := congrArg List.length hdrop
    rw [List.length_drop, List.length_cons] at hlength
    rw [List.length_take]
    omega

/-- A handler leaves the program of `main` and the pointers as they are. -/
theorem HandlerStep.frame {nbAddonsThreads : Nat} {newer older : List Handler} {h : Handler}
    {s s' : SignalState} (hstep : HandlerStep nbAddonsThreads newer h older s s') :
    s'.main = s.main ∧ s'.installed = s.installed ∧ s'.signum = s.signum ∧
      s'.threadIdentifiers = s.threadIdentifiers := by
  cases hstep <;> exact ⟨rfl, rfl, rfl, rfl⟩

/-- A step of a handler starts no handler. -/
theorem HandlerStep.handlers {nbAddonsThreads : Nat} {newer older : List Handler} {h : Handler}
    {s s' : SignalState} (hsplit : s.handlers = newer ++ h :: older)
    (hstep : HandlerStep nbAddonsThreads newer h older s s') :
    ∀ x ∈ s'.handlers, ∃ y ∈ s.handlers, x.thread = y.thread ∧ x.signum = y.signum := by
  have hmoved : ∀ pc, ∀ x ∈ newer ++ { h with pc := pc } :: older,
      ∃ y ∈ s.handlers, x.thread = y.thread ∧ x.signum = y.signum := by
    intro pc x hx
    rw [hsplit]
    rcases List.mem_append.mp hx with hnewer | hrest
    · exact ⟨x, List.mem_append_left _ hnewer, rfl, rfl⟩
    · rcases List.mem_cons.mp hrest with rfl | holder
      · exact ⟨h, List.mem_append_cons_self, rfl, rfl⟩
      · exact ⟨x, List.mem_append_right _ (List.mem_cons_of_mem _ holder), rfl, rfl⟩
  have hreturned : ∀ x ∈ newer ++ older,
      ∃ y ∈ s.handlers, x.thread = y.thread ∧ x.signum = y.signum := by
    intro x hx
    apply hmoved h.pc x
    rcases List.mem_append.mp hx with hnewer | holder
    · exact List.mem_append_left _ hnewer
    · exact List.mem_append_right _ (List.mem_cons_of_mem _ holder)
  cases hstep with
  | abort _ _ =>
      intro x hx
      exact ⟨x, hx, rfl, rfl⟩
  | log _ _ => exact hmoved _
  | sawZero _ _ _ => exact hmoved _
  | sawSignal _ _ _ => exact hreturned
  | assign _ _ => exact hmoved _
  | cancel _ _ _ => exact hmoved _
  | finish _ _ _ => exact hreturned

/-- Who moves when a step is not blocked. -/
theorem signalStep_moves {nbAddonsThreads : Nat} {s : SignalState} {a : SignalAction}
    (h : signalStep nbAddonsThreads s a ≠ .blocked) :
    (a = .main ∧ (∀ h ∈ s.handlers, h.thread ≠ 0) ∧
      signalStep nbAddonsThreads s a = mainStep s) ∨
    (∃ thread signum, a = .deliver thread signum ∧ signum ∈ s.installed ∧
      (∀ h ∈ s.handlers, h.thread = thread → h.signum ≠ signum) ∧
      signalStep nbAddonsThreads s a =
        .next { s with handlers := ⟨thread, signum, .log⟩ :: s.handlers }) ∨
    ∃ newer handler older, a = .handler newer.length ∧ s.handlers = newer ++ handler :: older ∧
      (∀ h ∈ newer, h.thread ≠ handler.thread) ∧
      signalStep nbAddonsThreads s a =
        signalHandling nbAddonsThreads newer handler older s := by
  unfold signalStep at h ⊢
  split at h
  · exact absurd rfl h
  · rename_i hended
    rw [if_neg hended]
    cases a with
    | main =>
        simp only at h
        split at h
        · rename_i hthread
          exact Or.inl ⟨rfl, hthread, if_pos hthread⟩
        · exact absurd rfl h
    | deliver thread signum =>
        simp only at h
        split at h
        · rename_i hdeliver
          exact Or.inr (Or.inl ⟨thread, signum, rfl, hdeliver.1, hdeliver.2, if_pos hdeliver⟩)
        · exact absurd rfl h
    | handler i =>
        simp only at h
        split at h
        · exact absurd rfl h
        · rename_i handler older hdrop
          split at h
          · rename_i hlast
            obtain ⟨hsplit, hlength⟩ := handlers_split hdrop
            refine Or.inr (Or.inr ⟨s.handlers.take i, handler, older, ?_, hsplit, hlast, ?_⟩)
            · rw [hlength]
            · simp only [hdrop]
              exact if_pos hlast
          · exact absurd rfl h

/-- The process makes one of its steps. -/
theorem signals_cases {nbAddonsThreads : Nat} {s s' : SignalState} {a : SignalAction}
    (h : (signals nbAddonsThreads).step s a = .next s') :
    SignalStep nbAddonsThreads s a s' := by
  have hmoves : signalStep nbAddonsThreads s a ≠ .blocked := by
    intro hblocked
    cases hblocked.symm.trans h
  rcases signalStep_moves hmoves with
    ⟨rfl, hthread, hstep⟩ | ⟨thread, signum, rfl, hinstalled, hunblocked, hstep⟩ |
      ⟨newer, handler, older, rfl, hsplit, hlast, hstep⟩
  · exact .main hthread (mainStep_cases (hstep.symm.trans h))
  · cases hstep.symm.trans h
    exact .deliver hinstalled hunblocked
  · exact .handler hsplit hlast (signalHandling_cases (hstep.symm.trans h))

/-- `main` dereferences NULL only in `waitForShutdown`. -/
theorem mainStep_undefined {s : SignalState} (h : mainStep s = .undefined) :
    s.main = .waitForShutdown ∧ (s.threadIdentifiers = .null ∨ s.signum = .null) := by
  unfold mainStep at h
  split at h
  case h_3 hpc =>
    split at h
    · rename_i hnull
      exact ⟨hpc, hnull⟩
    · split at h <;> cases h
  all_goals
    first
    | cases h
    | (split at h <;> cases h)

/-- A handler dereferences NULL only behind its log line. -/
theorem signalHandling_undefined {nbAddonsThreads : Nat} {newer older : List Handler}
    {handler : Handler} {s : SignalState}
    (h : signalHandling nbAddonsThreads newer handler older s = .undefined) :
    handler.pc ≠ .log ∧ (s.signum = .null ∨ s.threadIdentifiers = .null) := by
  unfold signalHandling at h
  split at h
  · split at h <;> cases h
  · rename_i hpc
    split at h
    · rename_i hnull
      exact ⟨by simp [hpc], Or.inl hnull⟩
    · split at h <;> cases h
  · rename_i hpc
    split at h
    · rename_i hnull
      exact ⟨by simp [hpc], Or.inl hnull⟩
    · cases h
  · rename_i hpc
    split at h
    · rename_i hnull
      exact ⟨by simp [hpc], Or.inr hnull⟩
    · split at h <;> cases h

/-- A step dereferences NULL only in `waitForShutdown` or in a handler behind its log line. -/
theorem signals_undefined {nbAddonsThreads : Nat} {s : SignalState} {a : SignalAction}
    (h : (signals nbAddonsThreads).step s a = .undefined) :
    (s.signum = .null ∨ s.threadIdentifiers = .null) ∧
      (s.main = .waitForShutdown ∨ ∃ handler ∈ s.handlers, handler.pc ≠ .log) := by
  have hmoves : signalStep nbAddonsThreads s a ≠ .blocked := by
    intro hblocked
    cases hblocked.symm.trans h
  rcases signalStep_moves hmoves with
    ⟨rfl, _, hstep⟩ | ⟨_, _, rfl, _, _, hstep⟩ | ⟨newer, handler, older, rfl, hsplit, _, hstep⟩
  · obtain ⟨hpc, hnull⟩ := mainStep_undefined (hstep.symm.trans h)
    exact ⟨hnull.symm, Or.inl hpc⟩
  · cases hstep.symm.trans h
  · obtain ⟨hpc, hnull⟩ := signalHandling_undefined (hstep.symm.trans h)
    have hmem : handler ∈ s.handlers := by
      rw [hsplit]
      exact List.mem_append_cons_self
    exact ⟨hnull, Or.inr ⟨handler, hmem, hpc⟩⟩

/-! ## Runs without interruption -/

/-- Alone, `signalsHandler` installs the handlers and then assigns both pointers. -/
theorem signalsHandler_run (nbAddonsThreads : Nat) :
    (signals nbAddonsThreads).run SignalState.start (List.replicate 32 .main) =
      .next SignalState.completed :=
  rfl

section LastHandler

variable {nbAddonsThreads : Nat} {s : SignalState} {h : Handler} {older : List Handler}

/-- The handler that was started last can always move. -/
theorem signalStep_last (hended : s.ended = false) (hhandlers : s.handlers = h :: older) :
    (signals nbAddonsThreads).step s (.handler 0) =
      signalHandling nbAddonsThreads [] h older s := by
  simp [signals, signalStep, hended, hhandlers]

/-- It logs its signal. -/
theorem signalStep_log (hended : s.ended = false) (hhandlers : s.handlers = h :: older)
    (hpc : h.pc = .log) (hpipe : h.signum ≠ SIGPIPE) :
    (signals nbAddonsThreads).step s (.handler 0) =
      .next
        { s with
          handlers := { h with pc := .test } :: older
          logs := s.logs ++ [signalLog h.signum] } := by
  rw [signalStep_last hended hhandlers]
  simp [signalHandling, hpc, hpipe]

/-- It finds that `*signum` is zero. -/
theorem signalStep_sawZero (hended : s.ended = false) (hhandlers : s.handlers = h :: older)
    (hpc : h.pc = .test) (hset : s.signum = .set) (hvalue : s.value = 0) :
    (signals nbAddonsThreads).step s (.handler 0) =
      .next { s with handlers := { h with pc := .assign } :: older } := by
  rw [signalStep_last hended hhandlers]
  simp [signalHandling, hpc, hset, hvalue]

/-- It assigns its signal to `*signum`. -/
theorem signalStep_assign (hended : s.ended = false) (hhandlers : s.handlers = h :: older)
    (hpc : h.pc = .assign) (hset : s.signum = .set) :
    (signals nbAddonsThreads).step s (.handler 0) =
      .next
        { s with
          value := h.signum
          handlers := { h with pc := .cancel 0 } :: older
          assigned := s.assigned ++ [h.signum] } := by
  rw [signalStep_last hended hhandlers]
  simp [signalHandling, hpc, hset]

/-- Uninterrupted, its loop cancels the addon threads that are left, and it returns. -/
theorem cancelLoop_run {k i : Nat} (hended : s.ended = false)
    (hset : s.threadIdentifiers = .set) (hleft : nbAddonsThreads = i + k)
    (hpc : h.pc = .cancel i) (hhandlers : s.handlers = h :: older) :
    (signals nbAddonsThreads).run s (List.replicate (k + 1) (.handler 0)) =
      .next { s with handlers := older, cancels := s.cancels ++ List.range' i k } := by
  induction k generalizing s h i with
  | zero =>
      have hstep : (signals nbAddonsThreads).step s (.handler 0) =
          .next { s with handlers := older } := by
        rw [signalStep_last hended hhandlers]
        simp [signalHandling, hpc, hset, hleft]
      simp [Machine.run, hstep]
  | succ k ih =>
      have hstep : (signals nbAddonsThreads).step s (.handler 0) =
          .next
            { s with
              handlers := { h with pc := .cancel (i + 1) } :: older
              cancels := s.cancels ++ [i] } := by
        rw [signalStep_last hended hhandlers]
        simp [signalHandling, hpc, hset, hleft]
      have hleft' : nbAddonsThreads = i + 1 + k := by omega
      have hrest := ih (i := i + 1) (h := { h with pc := .cancel (i + 1) })
        (s := { s with
          handlers := { h with pc := .cancel (i + 1) } :: older
          cancels := s.cancels ++ [i] }) hended hset hleft' rfl rfl
      rw [List.replicate_succ, Machine.run_cons_of_next hstep]
      simpa [List.range'_succ] using hrest

/-- Uninterrupted, a handler for a signal other than `SIGPIPE` assigns the first signal and
cancels every addon thread. -/
theorem signalHandling_run_first (hended : s.ended = false) (hsignum : s.signum = .set)
    (hset : s.threadIdentifiers = .set) (hvalue : s.value = 0) (hpc : h.pc = .log)
    (hpipe : h.signum ≠ SIGPIPE) (hhandlers : s.handlers = h :: older) :
    ∃ as, (signals nbAddonsThreads).run s as =
      .next
        { s with
          value := h.signum
          handlers := older
          cancels := s.cancels ++ List.range nbAddonsThreads
          assigned := s.assigned ++ [h.signum]
          logs := s.logs ++ [signalLog h.signum] } := by
  let logged : SignalState :=
    { s with
      handlers := { h with pc := .test } :: older
      logs := s.logs ++ [signalLog h.signum] }
  let tested : SignalState := { logged with handlers := { h with pc := .assign } :: older }
  let assigned : SignalState :=
    { logged with
      value := h.signum
      handlers := { h with pc := .cancel 0 } :: older
      assigned := s.assigned ++ [h.signum] }
  have hlog : (signals nbAddonsThreads).step s (.handler 0) = .next logged :=
    signalStep_log hended hhandlers hpc hpipe
  have htest : (signals nbAddonsThreads).step logged (.handler 0) = .next tested :=
    signalStep_sawZero (h := { h with pc := .test }) hended rfl rfl hsignum hvalue
  have hassign : (signals nbAddonsThreads).step tested (.handler 0) = .next assigned :=
    signalStep_assign (h := { h with pc := .assign }) hended rfl rfl hsignum
  have hcancel : (signals nbAddonsThreads).run assigned
      (List.replicate (nbAddonsThreads + 1) (.handler 0)) =
        .next
          { assigned with
            handlers := older
            cancels := s.cancels ++ List.range' 0 nbAddonsThreads } :=
    cancelLoop_run (h := { h with pc := .cancel 0 }) hended hset (Nat.zero_add _).symm rfl rfl
  refine ⟨.handler 0 :: .handler 0 :: .handler 0 ::
    List.replicate (nbAddonsThreads + 1) (.handler 0), ?_⟩
  rw [Machine.run_cons_of_next hlog, Machine.run_cons_of_next htest,
    Machine.run_cons_of_next hassign, hcancel, List.range_eq_range']

/-- Uninterrupted, a handler for a signal other than `SIGPIPE` keeps a signal that was assigned
before. -/
theorem signalHandling_run_later (hended : s.ended = false) (hsignum : s.signum = .set)
    (hvalue : s.value ≠ 0) (hpc : h.pc = .log) (hpipe : h.signum ≠ SIGPIPE)
    (hhandlers : s.handlers = h :: older) :
    ∃ as, (signals nbAddonsThreads).run s as =
      .next { s with handlers := older, logs := s.logs ++ [signalLog h.signum] } := by
  let logged : SignalState :=
    { s with
      handlers := { h with pc := .test } :: older
      logs := s.logs ++ [signalLog h.signum] }
  have hlog : (signals nbAddonsThreads).step s (.handler 0) = .next logged :=
    signalStep_log hended hhandlers hpc hpipe
  have htest : (signals nbAddonsThreads).step logged (.handler 0) =
      .next { s with handlers := older, logs := s.logs ++ [signalLog h.signum] } := by
    rw [signalStep_last (s := logged) hended rfl]
    simp [signalHandling, hsignum, hvalue, logged]
  refine ⟨[.handler 0, .handler 0], ?_⟩
  simp only [Machine.run, hlog, htest]

end LastHandler

end AlertProbe
