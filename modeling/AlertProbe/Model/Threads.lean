import AlertProbe.Foundations.LockedQueue
import AlertProbe.Model.Sender

/-!
# The threads of the probe

The addon threads, the format thread, the sender thread and the signal handler
as one machine.  A step is one lock or unlock of a mutex, one read of a `first`
pointer outside a critical section, one write of a `first` pointer, or one call
of `sendMessage`; the computation between two such points belongs to the step
that it precedes.  An addon is assumed to append one reading at a time at the
tail of the collect queue while it holds the mutex, and to stop for good some
time after the signal handler has cancelled it.

`History` holds history variables.  No step reads them.

Main results:

- Theorems `formatStep_cases` and `senderStep_cases`: what a step of either
  thread can do, one constructor for each program point and branch.
- Theorem `step_cases`: the same for every action of the machine.
- Theorem `ProbeStep.handed_cases`: which steps hand an element over.
-/

namespace AlertProbe

open Foundations

/-! ## Program points -/

/-- The parties that take a mutex. -/
inductive Thread where
  | addon (i : Nat)
  | format
  | sender
deriving DecidableEq, Repr

/-- Where an addon thread stands with respect to the collect queue. -/
inductive AddonPC where
  | idle
  | append
  | unlock
  | cancelled
deriving DecidableEq, Repr

/-- Program points of `pushSDElementQueue` once its element is filled in. -/
inductive PushPC where
  | lock
  | append
  | unlock
deriving DecidableEq, Repr

/-- Program points of `format`, `popCollectQueue` and the `pushSDElementQueue` in it. -/
inductive FormatPC where
  | testSignum
  | testFirst
  | lock
  | pop
  | push (pc : PushPC) (new : SDElementQueueElement)
  | advance
  | unlock
  | sleep
  | exited
deriving DecidableEq, Repr

/-- Program points of `sender`, `heartBeat`, the `pushSDElementQueue` in it, and
`popSDElementQueue`.  `returned` is the point behind a call of `heartBeat`. -/
inductive SenderPC where
  | testSignum
  | time
  | testQueue (collectTime : Time)
  | push (pc : PushPC) (new : SDElementQueueElement) (collectTime : Time)
  | returned (collectTime : Time) (value : Int32)
  | testFirst
  | lock
  | pop
  | sendMessage (popedElement : SDElementQueueElement)
  | advance
  | unlock
  | reset
  | sleep
  | exited
deriving DecidableEq, Repr

/-! ## States -/

/-- One call of `sendMessage` that returned. -/
structure Handed where
  element : SDElementQueueElement
  msgID : UInt16
  env : SendEnv
  result : SendResult
deriving DecidableEq, Repr

/-- History variables. -/
structure History where
  /-- Readings ever appended to the collect queue. -/
  pushed : List CollectQueueElement
  /-- Elements ever appended to the SD-Element queue. -/
  queued : List SDElementQueueElement
  /-- Calls of `sendMessage`. -/
  handed : List Handed
  /-- Last value that `time` returned. -/
  clock : Time
  /-- Length of `pushed` when the format thread last found the collect queue empty. -/
  collectSeen : Nat
  /-- Length of `queued` when the sender thread last found the SD-Element queue empty. -/
  sdSeen : Nat
  /-- Calls of `heartBeat` that returned. -/
  heartBeatCalls : Nat
deriving DecidableEq, Repr

/-- The shared and thread-local variables of the probe. -/
structure State where
  collectQueue : LockedQueue Thread CollectQueueElement
  sdElementQueue : LockedQueue Thread SDElementQueueElement
  signum : Int
  addons : Nat → AddonPC
  format : FormatPC
  sender : SenderPC
  /-- `senderParams->msgID` -/
  msgID : UInt16
  /-- The static variable of `heartBeat`. -/
  tmpTime : Time
  history : History

/-- What stays fixed during a run. -/
structure Params where
  glib : GLib
  header : SDElementHeader
  sender : SenderParams

/-- The state in which `main` has started its threads. -/
def State.start : State where
  collectQueue := LockedQueue.empty
  sdElementQueue := LockedQueue.empty
  signum := 0
  addons := fun _ => .idle
  format := .testSignum
  sender := .testSignum
  msgID := 0
  tmpTime := 0
  history := ⟨[], [], [], 0, 0, 0, 0⟩

/-! ## Steps -/

/-- Which party moves next, with the data that its surroundings supply for the move. -/
inductive Action where
  /-- The next step of an addon, with the reading it has at hand. -/
  | addon (i : Nat) (e : CollectQueueElement)
  /-- An addon acts on its cancellation. -/
  | cancel (i : Nat)
  | format
  /-- The next step of the sender thread, with the results of the calls it makes. -/
  | sender (env : SendEnv)
  /-- `signalHandling` runs for a signal other than `SIGPIPE`. -/
  | signal (signum : Int)

/-- A step of an addon thread. -/
def addonStep (i : Nat) (e : CollectQueueElement) (s : State) : Outcome State :=
  match s.addons i with
  | .idle =>
      match s.collectQueue.lock (.addon i) with
      | none => .blocked
      | some q => .next
          { s with collectQueue := q, addons := Function.update s.addons i .append }
  | .append => .next
      { s with
        collectQueue := s.collectQueue.append e
        addons := Function.update s.addons i .unlock
        history := { s.history with pushed := s.history.pushed ++ [e] } }
  | .unlock => .next
      { s with
        collectQueue := s.collectQueue.unlock
        addons := Function.update s.addons i .idle }
  | .cancelled => .blocked

/-- A step of the format thread. -/
def formatStep (p : Params) (s : State) : Outcome State :=
  match s.format with
  | .testSignum =>
      if s.signum = 0 then .next { s with format := .testFirst }
      else .next { s with format := .exited }
  | .testFirst =>
      if s.collectQueue.first = [] then .next
        { s with
          format := .sleep
          history := { s.history with collectSeen := s.history.pushed.length } }
      else .next { s with format := .lock }
  | .lock =>
      match s.collectQueue.lock .format with
      | none => .blocked
      | some q => .next { s with collectQueue := q, format := .pop }
  | .pop =>
      match s.collectQueue.first with
      | [] => .next { s with format := .unlock }
      | popedElement :: _ =>
          match formatElement p.glib popedElement with
          | none => .undefined
          | some afterOffset =>
              match newSDElement p.header afterOffset popedElement.time with
              | none => .undefined
              | some new => .next { s with format := .push .lock new }
  | .push .lock new =>
      match s.sdElementQueue.lock .format with
      | none => .blocked
      | some q => .next { s with sdElementQueue := q, format := .push .append new }
  | .push .append new => .next
      { s with
        sdElementQueue := s.sdElementQueue.append new
        format := .push .unlock new
        history := { s.history with queued := s.history.queued ++ [new] } }
  | .push .unlock _ => .next
      { s with sdElementQueue := s.sdElementQueue.unlock, format := .advance }
  | .advance => .next
      { s with collectQueue := s.collectQueue.advance, format := .unlock }
  | .unlock => .next
      { s with collectQueue := s.collectQueue.unlock, format := .testFirst }
  | .sleep => .next { s with format := .testSignum }
  | .exited => .blocked

/-- A step of the sender thread. -/
def senderStep (p : Params) (env : SendEnv) (s : State) : Outcome State :=
  match s.sender with
  | .testSignum =>
      if s.signum = 0 then .next { s with sender := .time }
      else .next { s with sender := .exited }
  | .time => .next
      { s with
        sender := .testQueue env.now
        history := { s.history with clock := env.now } }
  | .testQueue collectTime =>
      if s.sdElementQueue.first = [] ∨ s.tmpTime = 0 then
        if s.tmpTime = 0 ∨ collectTime - s.tmpTime > HEARTBEAT then
          match newSDElement p.header (ascii "") collectTime with
          | none => .undefined
          | some new => .next { s with sender := .push .lock new collectTime }
        else .next { s with sender := .returned collectTime 0 }
      else .next { s with tmpTime := collectTime, sender := .returned collectTime 0 }
  | .push .lock new collectTime =>
      match s.sdElementQueue.lock .sender with
      | none => .blocked
      | some q => .next
          { s with sdElementQueue := q, sender := .push .append new collectTime }
  | .push .append new collectTime => .next
      { s with
        sdElementQueue := s.sdElementQueue.append new
        sender := .push .unlock new collectTime
        history := { s.history with queued := s.history.queued ++ [new] } }
  | .push .unlock _ collectTime => .next
      { s with
        sdElementQueue := s.sdElementQueue.unlock
        tmpTime := collectTime
        sender := .returned collectTime 1 }
  | .returned _ _ => .next
      { s with
        sender := .testFirst
        history := { s.history with heartBeatCalls := s.history.heartBeatCalls + 1 } }
  | .testFirst =>
      if s.sdElementQueue.first = [] then .next
        { s with
          sender := .sleep
          history := { s.history with sdSeen := s.history.queued.length } }
      else .next { s with msgID := s.msgID + 1, sender := .lock }
  | .lock =>
      match s.sdElementQueue.lock .sender with
      | none => .blocked
      | some q => .next { s with sdElementQueue := q, sender := .pop }
  | .pop =>
      match s.sdElementQueue.first with
      | [] => .next { s with sender := .unlock }
      | popedElement :: _ => .next { s with sender := .sendMessage popedElement }
  | .sendMessage popedElement =>
      match sendMessage p.glib p.sender popedElement s.msgID env with
      | none => .undefined
      | some result => .next
          { s with
            sender := .advance
            history :=
              { s.history with
                handed := s.history.handed ++ [⟨popedElement, s.msgID, env, result⟩]
                clock := env.now } }
  | .advance => .next
      { s with sdElementQueue := s.sdElementQueue.advance, sender := .unlock }
  | .unlock => .next
      { s with sdElementQueue := s.sdElementQueue.unlock, sender := .reset }
  | .reset => .next { s with msgID := resetMsgID s.msgID, sender := .testFirst }
  | .sleep => .next { s with sender := .testSignum }
  | .exited => .blocked

/-- A step of the probe. -/
def step (p : Params) (s : State) : Action → Outcome State
  | .addon i e => addonStep i e s
  | .cancel i =>
      if s.signum = 0 then .blocked
      else .next { s with addons := Function.update s.addons i .cancelled }
  | .format => formatStep p s
  | .sender env => senderStep p env s
  | .signal signum =>
      if signum = 0 then .blocked
      else if s.signum = 0 then .next { s with signum := signum }
      else .next s

/-- The probe as a machine. -/
def probe (p : Params) : Machine State Action where
  initial := State.start
  step := step p

/-- A probe with the queue header of the unit tests that sends through TLS. -/
def exampleParams : Params where
  glib := exampleGLib
  header := exampleHeader
  sender := ⟨ascii "127.0.0.1", 443, 0⟩

/-! ## What a step can do -/

/-- The steps of an addon thread. -/
inductive AddonStep (i : Nat) (e : CollectQueueElement) (s : State) : State → Prop where
  | lock (hpc : s.addons i = .idle) (hfree : s.collectQueue.mutex = none) :
      AddonStep i e s
        { s with
          collectQueue := { s.collectQueue with mutex := some (.addon i) }
          addons := Function.update s.addons i .append }
  | append (hpc : s.addons i = .append) :
      AddonStep i e s
        { s with
          collectQueue := s.collectQueue.append e
          addons := Function.update s.addons i .unlock
          history := { s.history with pushed := s.history.pushed ++ [e] } }
  | unlock (hpc : s.addons i = .unlock) :
      AddonStep i e s
        { s with
          collectQueue := s.collectQueue.unlock
          addons := Function.update s.addons i .idle }

/-- The steps of the format thread. -/
inductive FormatStep (p : Params) (s : State) : State → Prop where
  | continue (hpc : s.format = .testSignum) (hsignum : s.signum = 0) :
      FormatStep p s { s with format := .testFirst }
  | exit (hpc : s.format = .testSignum) (hsignum : s.signum ≠ 0) :
      FormatStep p s { s with format := .exited }
  | sawEmpty (hpc : s.format = .testFirst) (hfirst : s.collectQueue.first = []) :
      FormatStep p s
        { s with
          format := .sleep
          history := { s.history with collectSeen := s.history.pushed.length } }
  | sawElement (hpc : s.format = .testFirst) (hfirst : s.collectQueue.first ≠ []) :
      FormatStep p s { s with format := .lock }
  | lock (hpc : s.format = .lock) (hfree : s.collectQueue.mutex = none) :
      FormatStep p s
        { s with
          collectQueue := { s.collectQueue with mutex := some .format }
          format := .pop }
  | popNothing (hpc : s.format = .pop) (hfirst : s.collectQueue.first = []) :
      FormatStep p s { s with format := .unlock }
  | pop {e : CollectQueueElement} {next : List CollectQueueElement} (hpc : s.format = .pop)
      (hfirst : s.collectQueue.first = e :: next)
      (hfits : (formatElement p.glib e).isSome = true) :
      FormatStep p s { s with format := .push .lock (render p.glib p.header e) }
  | pushLock {new : SDElementQueueElement} (hpc : s.format = .push .lock new)
      (hfree : s.sdElementQueue.mutex = none) :
      FormatStep p s
        { s with
          sdElementQueue := { s.sdElementQueue with mutex := some .format }
          format := .push .append new }
  | pushAppend {new : SDElementQueueElement} (hpc : s.format = .push .append new) :
      FormatStep p s
        { s with
          sdElementQueue := s.sdElementQueue.append new
          format := .push .unlock new
          history := { s.history with queued := s.history.queued ++ [new] } }
  | pushUnlock {new : SDElementQueueElement} (hpc : s.format = .push .unlock new) :
      FormatStep p s
        { s with sdElementQueue := s.sdElementQueue.unlock, format := .advance }
  | advance (hpc : s.format = .advance) :
      FormatStep p s { s with collectQueue := s.collectQueue.advance, format := .unlock }
  | unlock (hpc : s.format = .unlock) :
      FormatStep p s { s with collectQueue := s.collectQueue.unlock, format := .testFirst }
  | wake (hpc : s.format = .sleep) : FormatStep p s { s with format := .testSignum }

/-- The steps of the sender thread. -/
inductive SenderStep (p : Params) (env : SendEnv) (s : State) : State → Prop where
  | continue (hpc : s.sender = .testSignum) (hsignum : s.signum = 0) :
      SenderStep p env s { s with sender := .time }
  | exit (hpc : s.sender = .testSignum) (hsignum : s.signum ≠ 0) :
      SenderStep p env s { s with sender := .exited }
  | time (hpc : s.sender = .time) :
      SenderStep p env s
        { s with
          sender := .testQueue env.now
          history := { s.history with clock := env.now } }
  | due {collectTime : Time} (hpc : s.sender = .testQueue collectTime)
      (hidle : s.sdElementQueue.first = [] ∨ s.tmpTime = 0)
      (hdue : s.tmpTime = 0 ∨ collectTime - s.tmpTime > HEARTBEAT) :
      SenderStep p env s
        { s with sender := .push .lock (renderHeartBeat p.header collectTime) collectTime }
  | notDue {collectTime : Time} (hpc : s.sender = .testQueue collectTime)
      (hempty : s.sdElementQueue.first = []) (hnotFirst : s.tmpTime ≠ 0)
      (hrecent : collectTime - s.tmpTime ≤ HEARTBEAT) :
      SenderStep p env s { s with sender := .returned collectTime 0 }
  | busy {collectTime : Time} (hpc : s.sender = .testQueue collectTime)
      (hbusy : s.sdElementQueue.first ≠ []) (hnotFirst : s.tmpTime ≠ 0) :
      SenderStep p env s { s with tmpTime := collectTime, sender := .returned collectTime 0 }
  | pushLock {new : SDElementQueueElement} {collectTime : Time}
      (hpc : s.sender = .push .lock new collectTime)
      (hfree : s.sdElementQueue.mutex = none) :
      SenderStep p env s
        { s with
          sdElementQueue := { s.sdElementQueue with mutex := some .sender }
          sender := .push .append new collectTime }
  | pushAppend {new : SDElementQueueElement} {collectTime : Time}
      (hpc : s.sender = .push .append new collectTime) :
      SenderStep p env s
        { s with
          sdElementQueue := s.sdElementQueue.append new
          sender := .push .unlock new collectTime
          history := { s.history with queued := s.history.queued ++ [new] } }
  | pushUnlock {new : SDElementQueueElement} {collectTime : Time}
      (hpc : s.sender = .push .unlock new collectTime) :
      SenderStep p env s
        { s with
          sdElementQueue := s.sdElementQueue.unlock
          tmpTime := collectTime
          sender := .returned collectTime 1 }
  | proceed {collectTime : Time} {value : Int32}
      (hpc : s.sender = .returned collectTime value) :
      SenderStep p env s
        { s with
          sender := .testFirst
          history := { s.history with heartBeatCalls := s.history.heartBeatCalls + 1 } }
  | sawEmpty (hpc : s.sender = .testFirst) (hfirst : s.sdElementQueue.first = []) :
      SenderStep p env s
        { s with
          sender := .sleep
          history := { s.history with sdSeen := s.history.queued.length } }
  | sawElement (hpc : s.sender = .testFirst) (hfirst : s.sdElementQueue.first ≠ []) :
      SenderStep p env s { s with msgID := s.msgID + 1, sender := .lock }
  | lock (hpc : s.sender = .lock) (hfree : s.sdElementQueue.mutex = none) :
      SenderStep p env s
        { s with
          sdElementQueue := { s.sdElementQueue with mutex := some .sender }
          sender := .pop }
  | popNothing (hpc : s.sender = .pop) (hfirst : s.sdElementQueue.first = []) :
      SenderStep p env s { s with sender := .unlock }
  | pop {e : SDElementQueueElement} {next : List SDElementQueueElement}
      (hpc : s.sender = .pop) (hfirst : s.sdElementQueue.first = e :: next) :
      SenderStep p env s { s with sender := .sendMessage e }
  | sendMessage {e : SDElementQueueElement} {result : SendResult}
      (hpc : s.sender = .sendMessage e)
      (hsend : sendMessage p.glib p.sender e s.msgID env = some result) :
      SenderStep p env s
        { s with
          sender := .advance
          history :=
            { s.history with
              handed := s.history.handed ++ [⟨e, s.msgID, env, result⟩]
              clock := env.now } }
  | advance (hpc : s.sender = .advance) :
      SenderStep p env s
        { s with sdElementQueue := s.sdElementQueue.advance, sender := .unlock }
  | unlock (hpc : s.sender = .unlock) :
      SenderStep p env s
        { s with sdElementQueue := s.sdElementQueue.unlock, sender := .reset }
  | reset (hpc : s.sender = .reset) :
      SenderStep p env s { s with msgID := resetMsgID s.msgID, sender := .testFirst }
  | wake (hpc : s.sender = .sleep) : SenderStep p env s { s with sender := .testSignum }

/-- The steps of the probe. -/
inductive ProbeStep (p : Params) (s : State) : Action → State → Prop where
  | addon {i : Nat} {e : CollectQueueElement} {s' : State} (h : AddonStep i e s s') :
      ProbeStep p s (.addon i e) s'
  | cancel {i : Nat} (hsignum : s.signum ≠ 0) :
      ProbeStep p s (.cancel i) { s with addons := Function.update s.addons i .cancelled }
  | format {s' : State} (h : FormatStep p s s') : ProbeStep p s .format s'
  | sender {env : SendEnv} {s' : State} (h : SenderStep p env s s') :
      ProbeStep p s (.sender env) s'
  | signal {signum : Int} (hsignum : signum ≠ 0) (hfirst : s.signum = 0) :
      ProbeStep p s (.signal signum) { s with signum := signum }
  | signalAgain {signum : Int} (hsignum : signum ≠ 0) (hlater : s.signum ≠ 0) :
      ProbeStep p s (.signal signum) s

/-- An addon makes one of its steps. -/
theorem addonStep_cases {i : Nat} {e : CollectQueueElement} {s s' : State}
    (h : addonStep i e s = .next s') : AddonStep i e s s' := by
  unfold addonStep at h
  split at h
  · rename_i hpc
    split at h
    · cases h
    · rename_i q hlock
      rcases LockedQueue.lock_eq_some.mp hlock with ⟨hfree, rfl⟩
      cases h
      exact .lock hpc hfree
  · rename_i hpc
    cases h
    exact .append hpc
  · rename_i hpc
    cases h
    exact .unlock hpc
  · cases h

/-- The format thread makes one of its steps. -/
theorem formatStep_cases {p : Params} {s s' : State} (h : formatStep p s = .next s') :
    FormatStep p s s' := by
  unfold formatStep at h
  split at h
  case h_1 hpc =>
    split at h
    · rename_i hsignum
      cases h
      exact .continue hpc hsignum
    · rename_i hsignum
      cases h
      exact .exit hpc hsignum
  case h_2 hpc =>
    split at h
    · rename_i hfirst
      cases h
      exact .sawEmpty hpc hfirst
    · rename_i hfirst
      cases h
      exact .sawElement hpc hfirst
  case h_3 hpc =>
    split at h
    · cases h
    · rename_i q hlock
      rcases LockedQueue.lock_eq_some.mp hlock with ⟨hfree, rfl⟩
      cases h
      exact .lock hpc hfree
  case h_4 hpc =>
    split at h
    · rename_i hfirst
      cases h
      exact .popNothing hpc hfirst
    · rename_i e next hfirst
      split at h
      · cases h
      · rename_i text htext
        split at h
        · cases h
        · rename_i new hnew
          cases h
          rw [newSDElement_formatElement htext hnew]
          exact .pop hpc hfirst (by simp [htext])
  case h_5 new hpc =>
    split at h
    · cases h
    · rename_i q hlock
      rcases LockedQueue.lock_eq_some.mp hlock with ⟨hfree, rfl⟩
      cases h
      exact .pushLock hpc hfree
  case h_6 new hpc =>
    cases h
    exact .pushAppend hpc
  case h_7 new hpc =>
    cases h
    exact .pushUnlock hpc
  case h_8 hpc =>
    cases h
    exact .advance hpc
  case h_9 hpc =>
    cases h
    exact .unlock hpc
  case h_10 hpc =>
    cases h
    exact .wake hpc
  case h_11 => cases h

/-- The sender thread makes one of its steps. -/
theorem senderStep_cases {p : Params} {env : SendEnv} {s s' : State}
    (h : senderStep p env s = .next s') : SenderStep p env s s' := by
  unfold senderStep at h
  split at h
  case h_1 hpc =>
    split at h
    · rename_i hsignum
      cases h
      exact .continue hpc hsignum
    · rename_i hsignum
      cases h
      exact .exit hpc hsignum
  case h_2 hpc =>
    cases h
    exact .time hpc
  case h_3 collectTime hpc =>
    split at h
    · rename_i hidle
      split at h
      · rename_i hdue
        split at h
        · cases h
        · rename_i new hnew
          cases h
          rw [newSDElement_heartBeat hnew]
          exact .due hpc hidle hdue
      · rename_i hdue
        cases h
        rcases not_or.mp hdue with ⟨hnotFirst, hrecent⟩
        exact .notDue hpc (hidle.resolve_right hnotFirst) hnotFirst (not_lt.mp hrecent)
    · rename_i hidle
      cases h
      rcases not_or.mp hidle with ⟨hbusy, hnotFirst⟩
      exact .busy hpc hbusy hnotFirst
  case h_4 new collectTime hpc =>
    split at h
    · cases h
    · rename_i q hlock
      rcases LockedQueue.lock_eq_some.mp hlock with ⟨hfree, rfl⟩
      cases h
      exact .pushLock hpc hfree
  case h_5 new collectTime hpc =>
    cases h
    exact .pushAppend hpc
  case h_6 new collectTime hpc =>
    cases h
    exact .pushUnlock hpc
  case h_7 collectTime value hpc =>
    cases h
    exact .proceed hpc
  case h_8 hpc =>
    split at h
    · rename_i hfirst
      cases h
      exact .sawEmpty hpc hfirst
    · rename_i hfirst
      cases h
      exact .sawElement hpc hfirst
  case h_9 hpc =>
    split at h
    · cases h
    · rename_i q hlock
      rcases LockedQueue.lock_eq_some.mp hlock with ⟨hfree, rfl⟩
      cases h
      exact .lock hpc hfree
  case h_10 hpc =>
    split at h
    · rename_i hfirst
      cases h
      exact .popNothing hpc hfirst
    · rename_i e next hfirst
      cases h
      exact .pop hpc hfirst
  case h_11 e hpc =>
    split at h
    · cases h
    · rename_i result hsend
      cases h
      exact .sendMessage hpc hsend
  case h_12 hpc =>
    cases h
    exact .advance hpc
  case h_13 hpc =>
    cases h
    exact .unlock hpc
  case h_14 hpc =>
    cases h
    exact .reset hpc
  case h_15 hpc =>
    cases h
    exact .wake hpc
  case h_16 => cases h

/-- Every step of the probe is one of the listed steps. -/
theorem step_cases {p : Params} {s s' : State} {a : Action} (h : step p s a = .next s') :
    ProbeStep p s a s' := by
  unfold step at h
  cases a with
  | addon i e => exact .addon (addonStep_cases h)
  | cancel i =>
      simp only at h
      split at h
      · cases h
      · rename_i hsignum
        cases h
        exact .cancel hsignum
  | format => exact .format (formatStep_cases h)
  | sender env => exact .sender (senderStep_cases h)
  | signal signum =>
      simp only at h
      split at h
      · cases h
      · rename_i hsignum
        split at h
        · rename_i hfirst
          cases h
          exact .signal hsignum hfirst
        · rename_i hlater
          cases h
          exact .signalAgain hsignum hlater

/-- A step hands nothing over, unless it is the call of `sendMessage`. -/
theorem ProbeStep.handed_cases {p : Params} {s s' : State} {a : Action}
    (h : ProbeStep p s a s') :
    s'.history.handed = s.history.handed ∨
      ∃ e env result, s.sender = .sendMessage e ∧ a = .sender env ∧
        sendMessage p.glib p.sender e s.msgID env = some result ∧
        s'.history.handed = s.history.handed ++ [⟨e, s.msgID, env, result⟩] := by
  cases h with
  | addon hs => cases hs <;> exact Or.inl rfl
  | format hs => cases hs <;> exact Or.inl rfl
  | sender hs =>
      cases hs with
      | sendMessage hpc hsend => exact Or.inr ⟨_, _, _, hpc, rfl, hsend, rfl⟩
      | _ => exact Or.inl rfl
  | _ => exact Or.inl rfl

end AlertProbe
