import AlertProbe.Model.Threads

/-!
# Mutex ownership and queue heads

Two invariants that the results about the pipeline share.  A thread owns a mutex
exactly while it is inside a critical section of that mutex, and the element
that a thread is working on is the first one of its queue, because each queue
has a single consumer.

Main results:

- Theorem `lockInv_of_reachable`: ownership of the two mutexes.
- Theorem `headInv_of_reachable`: what the consumers know about their queues.
- Theorems `HeadInv.collectQueue_ne_nil` and `HeadInv.sdElementQueue_ne_nil`: behind
  the unlocked emptiness tests, the tests inside the critical sections never find
  a queue empty.
-/

namespace AlertProbe

open Foundations

/-! ## Critical sections -/

/-- The addon is inside its critical section of the collect mutex. -/
def AddonPC.holdsCollect : AddonPC → Bool
  | .append | .unlock => true
  | .idle | .cancelled => false

/-- The format thread is inside its critical section of the collect mutex. -/
def FormatPC.holdsCollect : FormatPC → Bool
  | .pop | .push _ _ | .advance | .unlock => true
  | .testSignum | .testFirst | .lock | .sleep | .exited => false

/-- The format thread is inside its critical section of the SD-Element mutex. -/
def FormatPC.holdsSD : FormatPC → Bool
  | .push .append _ | .push .unlock _ => true
  | _ => false

/-- The sender thread is inside one of its critical sections of the SD-Element mutex. -/
def SenderPC.holdsSD : SenderPC → Bool
  | .push .append _ _ | .push .unlock _ _ | .pop | .sendMessage _ | .advance | .unlock => true
  | _ => false

/-- Ownership of the mutexes.  An addon that was cancelled inside its critical section may
own the collect mutex for ever, so the addons have no equivalence. -/
structure LockInv (s : State) : Prop where
  collect_format : s.collectQueue.mutex = some .format ↔ s.format.holdsCollect = true
  collect_addon : ∀ i, (s.addons i).holdsCollect = true →
    s.collectQueue.mutex = some (.addon i)
  collect_idle : ∀ i, s.addons i = .idle → s.collectQueue.mutex ≠ some (.addon i)
  collect_sender : s.collectQueue.mutex ≠ some .sender
  sd_format : s.sdElementQueue.mutex = some .format ↔ s.format.holdsSD = true
  sd_sender : s.sdElementQueue.mutex = some .sender ↔ s.sender.holdsSD = true
  sd_addon : ∀ i, s.sdElementQueue.mutex ≠ some (.addon i)

theorem LockInv.start : LockInv State.start where
  collect_format := by simp [State.start, FormatPC.holdsCollect]
  collect_addon := by simp [State.start, AddonPC.holdsCollect]
  collect_idle := by simp [State.start]
  collect_sender := by simp [State.start]
  sd_format := by simp [State.start, FormatPC.holdsSD]
  sd_sender := by simp [State.start, SenderPC.holdsSD]
  sd_addon := by simp [State.start]

/-- An addon that takes no mutex leaves the ownership of the mutexes as it is. -/
theorem LockInv.moveAddon {i : Nat} {pc : AddonPC} {s : State} (h : LockInv s)
    (hidle : pc ≠ .idle)
    (hholds : pc.holdsCollect = true → (s.addons i).holdsCollect = true) :
    LockInv { s with addons := Function.update s.addons i pc } := by
  refine { h with collect_addon := ?_, collect_idle := ?_ }
  · intro j hj
    by_cases hji : j = i
    · simp only [hji, Function.update_self] at hj
      rw [hji]
      exact h.collect_addon i (hholds hj)
    · simp only [Function.update_of_ne hji] at hj
      exact h.collect_addon j hj
  · intro j hj
    by_cases hji : j = i
    · simp only [hji, Function.update_self] at hj
      exact absurd hj hidle
    · simp only [Function.update_of_ne hji] at hj
      exact h.collect_idle j hj

/-- The steps of an addon keep the ownership of the mutexes. -/
theorem LockInv.addonStep {i : Nat} {e : CollectQueueElement} {s s' : State} (h : LockInv s)
    (hs : AddonStep i e s s') : LockInv s' := by
  cases hs with
  | lock hpc hfree =>
      have hformat : s.format.holdsCollect = false := by
        simpa [hfree] using h.collect_format
      refine { h with
        collect_format := by simp [hformat]
        collect_addon := ?_
        collect_idle := ?_
        collect_sender := by simp }
      · intro j hj
        by_cases hji : j = i
        · rw [hji]
        · simp only [Function.update_of_ne hji] at hj
          exact absurd (h.collect_addon j hj) (by simp [hfree])
      · intro j hj howner
        cases howner
        simp at hj
  | append hpc =>
      have hmoved : LockInv { s with addons := Function.update s.addons i .unlock } := by
        apply h.moveAddon (by decide)
        intro _
        rw [hpc]
        rfl
      exact { hmoved with }
  | unlock hpc =>
      have howner : s.collectQueue.mutex = some (.addon i) :=
        h.collect_addon i (by rw [hpc]; rfl)
      have hformat : s.format.holdsCollect = false := by
        simpa [howner] using h.collect_format
      refine { h with
        collect_format := by simp [hformat]
        collect_addon := ?_
        collect_idle := by simp
        collect_sender := by simp }
      intro j hj
      by_cases hji : j = i
      · rw [hji] at hj
        simp [AddonPC.holdsCollect] at hj
      · simp only [Function.update_of_ne hji] at hj
        have hother := h.collect_addon j hj
        rw [howner] at hother
        simp only [Option.some.injEq, Thread.addon.injEq] at hother
        exact absurd hother.symm hji

/-- A cancelled addon leaves the ownership of the mutexes as it is. -/
theorem LockInv.cancel {i : Nat} {s : State} (h : LockInv s) :
    LockInv { s with addons := Function.update s.addons i .cancelled } := by
  apply h.moveAddon (by decide)
  intro hholds
  cases hholds

/-- The steps of the format thread keep the ownership of the mutexes. -/
theorem LockInv.formatStep {p : Params} {s s' : State} (h : LockInv s)
    (hs : FormatStep p s s') : LockInv s' := by
  cases hs with
  | lock hpc hfree =>
      refine { h with
        collect_format := by simp [FormatPC.holdsCollect]
        collect_addon := ?_
        collect_idle := by simp
        collect_sender := by simp
        sd_format := by simpa [hpc, FormatPC.holdsSD] using h.sd_format }
      intro i hi
      exact absurd (h.collect_addon i hi) (by simp [hfree])
  | unlock hpc =>
      have howner : s.collectQueue.mutex = some .format :=
        h.collect_format.mpr (by rw [hpc]; rfl)
      refine { h with
        collect_format := by simp [FormatPC.holdsCollect]
        collect_addon := ?_
        collect_idle := by simp
        collect_sender := by simp
        sd_format := by simpa [hpc, FormatPC.holdsSD] using h.sd_format }
      intro i hi
      exact absurd (h.collect_addon i hi) (by simp [howner])
  | pushLock hpc hfree =>
      have hsender : s.sender.holdsSD = false := by
        simpa [hfree] using h.sd_sender
      exact { h with
        collect_format := by simpa [hpc, FormatPC.holdsCollect] using h.collect_format
        sd_format := by simp [FormatPC.holdsSD]
        sd_sender := by simp [hsender]
        sd_addon := by simp }
  | pushUnlock hpc =>
      have howner : s.sdElementQueue.mutex = some .format :=
        h.sd_format.mpr (by rw [hpc]; rfl)
      have hsender : s.sender.holdsSD = false := by
        simpa [howner] using h.sd_sender
      exact { h with
        collect_format := by simpa [hpc, FormatPC.holdsCollect] using h.collect_format
        sd_format := by simp [FormatPC.holdsSD]
        sd_sender := by simp [hsender]
        sd_addon := by simp }
  | _ =>
      exact { h with
        collect_format := by simpa [*, FormatPC.holdsCollect] using h.collect_format
        sd_format := by simpa [*, FormatPC.holdsSD] using h.sd_format }

/-- The steps of the sender thread keep the ownership of the mutexes. -/
theorem LockInv.senderStep {p : Params} {env : SendEnv} {s s' : State} (h : LockInv s)
    (hs : SenderStep p env s s') : LockInv s' := by
  cases hs with
  | pushLock hpc hfree | lock hpc hfree =>
      have hformat : s.format.holdsSD = false := by
        simpa [hfree] using h.sd_format
      exact { h with
        sd_format := by simp [hformat]
        sd_sender := by simp [SenderPC.holdsSD]
        sd_addon := by simp }
  | pushUnlock hpc | unlock hpc =>
      have howner : s.sdElementQueue.mutex = some .sender :=
        h.sd_sender.mpr (by rw [hpc]; rfl)
      have hformat : s.format.holdsSD = false := by
        simpa [howner] using h.sd_format
      exact { h with
        sd_format := by simp [hformat]
        sd_sender := by simp [SenderPC.holdsSD]
        sd_addon := by simp }
  | _ =>
      exact { h with sd_sender := by simpa [*, SenderPC.holdsSD] using h.sd_sender }

/-- Every step of the probe keeps the ownership of the mutexes. -/
theorem LockInv.step {p : Params} {s s' : State} {a : Action} (h : LockInv s)
    (hs : ProbeStep p s a s') : LockInv s' := by
  cases hs with
  | addon hs => exact h.addonStep hs
  | cancel => exact h.cancel
  | format hs => exact h.formatStep hs
  | sender hs => exact h.senderStep hs
  | signal => exact { h with }
  | signalAgain => exact h

/-- In every reachable state a mutex is owned by the thread that is inside its critical
section. -/
theorem lockInv_of_reachable {p : Params} {s : State} (h : (probe p).Reachable s) :
    LockInv s := by
  apply h.invariant LockInv.start
  intro s a s' hinv hstep
  exact hinv.step (step_cases hstep)

/-! ## Queue heads -/

/-- What the format thread knows about the collect queue. -/
def FormatPC.HeadOk (p : Params) (queue : List CollectQueueElement) : FormatPC → Prop
  | .lock | .pop | .advance => queue ≠ []
  | .push _ new => ∃ e, queue.head? = some e ∧ new = render p.glib p.header e
  | _ => True

/-- What the sender thread knows about the SD-Element queue and its own heartbeat. -/
def SenderPC.HeadOk (p : Params) (queue : List SDElementQueueElement) : SenderPC → Prop
  | .push .lock new collectTime | .push .append new collectTime =>
      new = renderHeartBeat p.header collectTime
  | .push .unlock _ _ | .lock | .pop | .advance => queue ≠ []
  | .sendMessage popedElement => queue.head? = some popedElement
  | _ => True

/-- An addon's append changes nothing that the format thread knows. -/
theorem FormatPC.HeadOk.append {p : Params} {queue : List CollectQueueElement} {pc : FormatPC}
    (h : pc.HeadOk p queue) (e : CollectQueueElement) : pc.HeadOk p (queue ++ [e]) := by
  cases pc with
  | push pc new =>
      rcases h with ⟨head, hhead, hnew⟩
      exact ⟨head, by simp [hhead], hnew⟩
  | _ => simp_all [FormatPC.HeadOk]

/-- An append to the SD-Element queue changes nothing that the sender thread knows. -/
theorem SenderPC.HeadOk.append {p : Params} {queue : List SDElementQueueElement}
    {pc : SenderPC} (h : pc.HeadOk p queue) (e : SDElementQueueElement) :
    pc.HeadOk p (queue ++ [e]) := by
  cases pc with
  | push pc new collectTime => cases pc <;> simp_all [SenderPC.HeadOk]
  | _ => simp_all [SenderPC.HeadOk]

/-- What both consumers know about their queues. -/
structure HeadInv (p : Params) (s : State) : Prop where
  format : s.format.HeadOk p s.collectQueue.first
  sender : s.sender.HeadOk p s.sdElementQueue.first

/-- The steps of the format thread keep what the consumers know. -/
theorem HeadInv.formatStep {p : Params} {s s' : State} (h : HeadInv p s)
    (hs : FormatStep p s s') : HeadInv p s' := by
  have hformat := h.format
  cases hs with
  | sawElement hpc hfirst => exact ⟨hfirst, h.sender⟩
  | lock hpc hfree =>
      rw [hpc] at hformat
      exact ⟨hformat, h.sender⟩
  | pop hpc hfirst =>
      refine ⟨⟨_, ?_, rfl⟩, h.sender⟩
      simp [hfirst]
  | pushLock hpc hfree =>
      rw [hpc] at hformat
      exact ⟨hformat, h.sender⟩
  | pushAppend hpc =>
      rw [hpc] at hformat
      exact ⟨hformat, h.sender.append _⟩
  | pushUnlock hpc =>
      rw [hpc] at hformat
      rcases hformat with ⟨e, hhead, _⟩
      refine ⟨?_, h.sender⟩
      change s.collectQueue.first ≠ []
      intro hnil
      simp [hnil] at hhead
  | _ => exact ⟨trivial, h.sender⟩

/-- The steps of the sender thread keep what the consumers know. -/
theorem HeadInv.senderStep {p : Params} {env : SendEnv} {s s' : State} (h : HeadInv p s)
    (hs : SenderStep p env s s') : HeadInv p s' := by
  have hsender := h.sender
  cases hs with
  | due => exact ⟨h.format, rfl⟩
  | pushLock hpc hfree =>
      rw [hpc] at hsender
      exact ⟨h.format, hsender⟩
  | pushAppend hpc =>
      refine ⟨h.format, ?_⟩
      simp [SenderPC.HeadOk]
  | sawElement hpc hfirst => exact ⟨h.format, hfirst⟩
  | lock hpc hfree =>
      rw [hpc] at hsender
      exact ⟨h.format, hsender⟩
  | pop hpc hfirst =>
      refine ⟨h.format, ?_⟩
      simp [SenderPC.HeadOk, hfirst]
  | sendMessage hpc hsend =>
      rw [hpc] at hsender
      refine ⟨h.format, ?_⟩
      change s.sdElementQueue.first ≠ []
      intro hnil
      simp [SenderPC.HeadOk, hnil] at hsender
  | _ => exact ⟨h.format, trivial⟩

/-- Every step of the probe keeps what the consumers know. -/
theorem HeadInv.step {p : Params} {s s' : State} {a : Action} (h : HeadInv p s)
    (hs : ProbeStep p s a s') : HeadInv p s' := by
  cases hs with
  | addon hs =>
      cases hs with
      | append hpc => exact ⟨h.format.append _, h.sender⟩
      | _ => exact ⟨h.format, h.sender⟩
  | format hs => exact h.formatStep hs
  | sender hs => exact h.senderStep hs
  | _ => exact ⟨h.format, h.sender⟩

/-- In every reachable state the consumers know what they rely on. -/
theorem headInv_of_reachable {p : Params} {s : State} (h : (probe p).Reachable s) :
    HeadInv p s := by
  apply h.invariant ⟨trivial, trivial⟩
  intro s a s' hinv hstep
  exact hinv.step (step_cases hstep)

/-- The format thread never finds the collect queue empty once it is past the unlocked test:
it is the only consumer. -/
theorem HeadInv.collectQueue_ne_nil {p : Params} {s : State} (h : HeadInv p s)
    (hpc : s.format = .pop) : s.collectQueue.first ≠ [] := by
  have hformat := h.format
  rw [hpc] at hformat
  exact hformat

/-- The sender thread never finds the SD-Element queue empty once it is past the unlocked
test: it is the only consumer. -/
theorem HeadInv.sdElementQueue_ne_nil {p : Params} {s : State} (h : HeadInv p s)
    (hpc : s.sender = .pop) : s.sdElementQueue.first ≠ [] := by
  have hsender := h.sender
  rw [hpc] at hsender
  exact hsender

end AlertProbe
