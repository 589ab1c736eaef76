import AlertProbe.Foundations.Fairness
import AlertProbe.Pipeline.Shutdown

/-!
# Progress

As long as no signal arrives, the probe delivers.  The scheduler is assumed to be
strongly fair to the format thread and to the sender thread, and an addon that is
inside its critical section is assumed to leave it; nothing is assumed about how
often addons take the collect mutex.

Main results:

- Theorems `FairRun.format_moves` and `FairRun.sender_moves`: neither thread is
  kept waiting for ever.
- Theorem `FairRun.formats` and `FairRun.hands_over`: what is unpushed is pushed,
  and what is pending is handed over.
- Theorem `readings_delivered`: every reading is handed over in the end.
-/

namespace AlertProbe

open Foundations Filter

/-! ## Fair runs -/

/-- A move of the sender thread. -/
def Action.IsSender (a : Action) : Prop :=
  ∃ env, a = .sender env

/-- An endless run without a signal, with a fair scheduler and with addons that leave their
critical sections. -/
structure FairRun (p : Params) extends (probe p).InfiniteRun where
  noSignal : ∀ n signum, action n ≠ .signal signum
  addonLeaves : ∀ n i, ((state n).addons i).holdsCollect = true →
    ∃ m, n ≤ m ∧ ((state m).addons i).holdsCollect = false
  fairFormat : toInfiniteRun.FairTo (· = .format)
  fairSender : toInfiniteRun.FairTo Action.IsSender

/-- Before a signal no thread has exited and no addon is cancelled. -/
structure RunningInv (s : State) : Prop where
  format : s.signum = 0 → s.format ≠ .exited
  sender : s.signum = 0 → s.sender ≠ .exited
  addons : s.signum = 0 → ∀ i, s.addons i ≠ .cancelled

/-- Every step of the probe keeps the threads running before a signal. -/
theorem RunningInv.step {p : Params} {s s' : State} {a : Action} (h : RunningInv s)
    (hs : ProbeStep p s a s') : RunningInv s' := by
  cases hs with
  | @addon i e s' hs =>
      have hmoved : ∀ pc, pc ≠ AddonPC.cancelled → s.signum = 0 →
          ∀ j, Function.update s.addons i pc j ≠ .cancelled := by
        intro pc hpc hsignum j
        by_cases hji : j = i
        · rw [hji, Function.update_self]
          exact hpc
        · rw [Function.update_of_ne hji]
          exact h.addons hsignum j
      cases hs <;> exact ⟨h.format, h.sender, hmoved _ (by decide)⟩
  | cancel hsignum =>
      exact ⟨h.format, h.sender, fun hzero => absurd hzero hsignum⟩
  | format hs =>
      cases hs with
      | exit hpc hsignum =>
          exact ⟨fun hzero => absurd hzero hsignum, h.sender, h.addons⟩
      | _ => exact ⟨fun _ => by simp, h.sender, h.addons⟩
  | sender hs =>
      cases hs with
      | exit hpc hsignum =>
          exact ⟨h.format, fun hzero => absurd hzero hsignum, h.addons⟩
      | _ => exact ⟨h.format, fun _ => by simp, h.addons⟩
  | signal hsignum _ =>
      exact ⟨fun hzero => absurd hzero hsignum, fun hzero => absurd hzero hsignum,
        fun hzero => absurd hzero hsignum⟩
  | signalAgain => exact h

/-- The threads run in every reachable state before a signal. -/
theorem runningInv_of_reachable {p : Params} {s : State} (h : (probe p).Reachable s) :
    RunningInv s := by
  apply h.invariant
  · exact ⟨by simp [probe, State.start], by simp [probe, State.start],
      by simp [probe, State.start]⟩
  · intro s a s' hinv hstep
    exact hinv.step (step_cases hstep)

/-- Only a signal sets `signum`. -/
theorem ProbeStep.signum_eq {p : Params} {s s' : State} {a : Action} (h : ProbeStep p s a s')
    (hnoSignal : ∀ signum, a ≠ .signal signum) : s'.signum = s.signum := by
  cases h with
  | addon hs => cases hs <;> rfl
  | format hs => cases hs <;> rfl
  | sender hs => cases hs <;> rfl
  | signal => exact absurd rfl (hnoSignal _)
  | _ => rfl

namespace FairRun

variable {p : Params} (r : FairRun p)

/-- Every step of the run is one of the listed steps. -/
theorem probeStep (n : ℕ) : ProbeStep p (r.state n) (r.action n) (r.state (n + 1)) :=
  step_cases (r.steps n)

/-- No state of the run is behind a signal. -/
theorem signum (n : ℕ) : (r.state n).signum = 0 := by
  induction n with
  | zero =>
      rw [r.starts]
      rfl
  | succ n ih =>
      rw [(r.probeStep n).signum_eq (r.noSignal n)]
      exact ih

theorem lockInv (n : ℕ) : LockInv (r.state n) :=
  lockInv_of_reachable (r.reachable n)

theorem headInv (n : ℕ) : HeadInv p (r.state n) :=
  headInv_of_reachable (r.reachable n)

theorem runningInv (n : ℕ) : RunningInv (r.state n) :=
  runningInv_of_reachable (r.reachable n)

end FairRun

/-! ## Critical sections end -/

/-- Steps that the format thread makes inside its critical section of the SD-Element mutex. -/
def FormatPC.sdSteps : FormatPC → ℕ
  | .push .append _ => 1
  | _ => 0

/-- Steps that the sender thread makes inside its critical sections. -/
def SenderPC.sdSteps : SenderPC → ℕ
  | .pop => 3
  | .sendMessage _ => 2
  | .advance | .push .append _ _ => 1
  | _ => 0

/-- A step of the format thread inside its critical section of the SD-Element mutex. -/
theorem FormatStep.sdSteps_lt {p : Params} {s s' : State} (hholds : s.format.holdsSD = true)
    (hs : FormatStep p s s') :
    s'.format.holdsSD = false ∨
      s'.format.holdsSD = true ∧ s'.format.sdSteps < s.format.sdSteps := by
  cases hs <;> simp_all [FormatPC.holdsSD, FormatPC.sdSteps]

/-- A step of the sender thread inside a critical section. -/
theorem SenderStep.sdSteps_lt {p : Params} {env : SendEnv} {s s' : State}
    (hholds : s.sender.holdsSD = true) (hs : SenderStep p env s s') :
    s'.sender.holdsSD = false ∨
      s'.sender.holdsSD = true ∧ s'.sender.sdSteps < s.sender.sdSteps := by
  cases hs <;> simp_all [SenderPC.holdsSD, SenderPC.sdSteps]

/-- Only the format thread moves its program point. -/
theorem ProbeStep.format_cases {p : Params} {s s' : State} {a : Action}
    (h : ProbeStep p s a s') :
    (a = .format ∧ FormatStep p s s') ∨ (a ≠ .format ∧ s'.format = s.format) := by
  cases h with
  | format hs => exact Or.inl ⟨rfl, hs⟩
  | addon hs => cases hs <;> exact Or.inr ⟨by simp, rfl⟩
  | sender hs => cases hs <;> exact Or.inr ⟨by simp, rfl⟩
  | _ => exact Or.inr ⟨by simp, rfl⟩

/-- Only the sender thread moves its program point. -/
theorem ProbeStep.sender_cases {p : Params} {s s' : State} {a : Action}
    (h : ProbeStep p s a s') :
    (∃ env, a = .sender env ∧ SenderStep p env s s') ∨
      (¬ a.IsSender ∧ s'.sender = s.sender) := by
  cases h with
  | sender hs => exact Or.inl ⟨_, rfl, hs⟩
  | addon hs => cases hs <;> exact Or.inr ⟨by simp [Action.IsSender], rfl⟩
  | format hs => cases hs <;> exact Or.inr ⟨by simp [Action.IsSender], rfl⟩
  | _ => exact Or.inr ⟨by simp [Action.IsSender], rfl⟩

/-- Nobody takes the collect mutex from its owner. -/
theorem ProbeStep.collect_owner {p : Params} {s s' : State} {a : Action} {u : Thread}
    (h : ProbeStep p s a s') (howner : s.collectQueue.mutex = some u) :
    s'.collectQueue.mutex = some u ∨ s'.collectQueue.mutex = none := by
  cases h with
  | addon hs => cases hs <;> simp_all
  | format hs => cases hs <;> simp_all
  | sender hs => cases hs <;> exact Or.inl howner
  | _ => exact Or.inl howner

/-- Whoever owns the SD-Element mutex is not waiting for the collect mutex. -/
theorem LockInv.format_enabled {p : Params} {s : State} (h : LockInv s)
    (howner : s.sdElementQueue.mutex = some .format) : (probe p).Enabled s .format := by
  intro hblocked
  rcases waitsFor_of_formatStep_blocked hblocked with hexited | ⟨u, m, hwants, _⟩
  · have hholds := h.sd_format.mp howner
    rw [hexited] at hholds
    cases hholds
  · exact (h.not_owner_of_wants hwants).1 howner

/-- The sender thread waits for the format thread only. -/
theorem LockInv.format_owns {s : State} (h : LockInv s) {u : Thread}
    (hwaits : s.WaitsFor .sender u) : s.sdElementQueue.mutex = some .format := by
  rcases hwaits with ⟨m, hwants, howner⟩
  rcases SenderPC.of_wants hwants with ⟨rfl, _⟩
  change s.sdElementQueue.mutex = some u at howner
  cases u with
  | addon i => exact absurd howner (h.sd_addon i)
  | format => exact howner
  | sender => exact absurd howner (h.not_owner_of_wants hwants).1

/-- The format thread waits for the sender thread or for an addon. -/
theorem LockInv.sender_or_addon_owns {s : State} (h : LockInv s) {u : Thread} {m : Mutex}
    (hwants : s.wants .format = some m) (howner : s.owner m = some u) :
    (m = .sdElementQueue ∧ u = .sender) ∨ (m = .collectQueue ∧ ∃ i, u = .addon i) := by
  have hnotOwner := h.not_owner_of_wants hwants
  cases m with
  | sdElementQueue =>
      change s.sdElementQueue.mutex = some u at howner
      cases u with
      | addon i => exact absurd howner (h.sd_addon i)
      | format => exact absurd howner hnotOwner.1
      | sender => exact Or.inl ⟨rfl, rfl⟩
  | collectQueue =>
      change s.collectQueue.mutex = some u at howner
      cases u with
      | addon i => exact Or.inr ⟨rfl, i, rfl⟩
      | format => exact absurd howner (hnotOwner.2 rfl)
      | sender => exact absurd howner h.collect_sender

namespace FairRun

variable {p : Params} {r : FairRun p}

/-- A sender thread that keeps moving leaves its critical section. -/
theorem sender_leaves (hmoves : ∃ᶠ n in atTop, (r.action n).IsSender) {N : ℕ}
    (h : (r.state N).sender.holdsSD = true) :
    ∃ m, N ≤ m ∧ (r.state m).sender.holdsSD = false := by
  refine Machine.InfiniteRun.leadsTo (fun s : State => s.sender.holdsSD = true)
    (fun s : State => s.sender.holdsSD = false) (fun s : State => s.sender.sdSteps)
    Action.IsSender hmoves ?_ (le_refl N) h
  intro n _ hholds
  rcases (r.probeStep n).sender_cases with ⟨env, _, hs⟩ | ⟨hother, hsame⟩
  · rcases hs.sdSteps_lt hholds with hleft | ⟨hstays, hlt⟩
    · exact Or.inl hleft
    · exact Or.inr ⟨hstays, le_of_lt hlt, fun _ => hlt⟩
  · rw [hsame]
    exact Or.inr ⟨hholds, le_refl _, fun hmove => absurd hmove hother⟩

/-- A format thread that keeps moving leaves its critical section of the SD-Element mutex. -/
theorem format_leaves (hmoves : ∃ᶠ n in atTop, r.action n = .format) {N : ℕ}
    (h : (r.state N).format.holdsSD = true) :
    ∃ m, N ≤ m ∧ (r.state m).format.holdsSD = false := by
  refine Machine.InfiniteRun.leadsTo (fun s : State => s.format.holdsSD = true)
    (fun s : State => s.format.holdsSD = false) (fun s : State => s.format.sdSteps)
    (· = .format) hmoves ?_ (le_refl N) h
  intro n _ hholds
  rcases (r.probeStep n).format_cases with ⟨_, hs⟩ | ⟨hother, hsame⟩
  · rcases hs.sdSteps_lt hholds with hleft | ⟨hstays, hlt⟩
    · exact Or.inl hleft
    · exact Or.inr ⟨hstays, le_of_lt hlt, fun _ => hlt⟩
  · rw [hsame]
    exact Or.inr ⟨hholds, le_refl _, fun hmove => absurd hmove hother⟩

/-! ## Both threads move -/

variable (r)

/-- The sender thread moves again and again: the format thread does not stay inside its
critical section of the SD-Element mutex. -/
theorem sender_moves : ∃ᶠ n in atTop, (r.action n).IsSender := by
  apply Machine.InfiniteRun.moves_of_fair r.fairSender
  intro N hblocked
  have howner : ∀ n, N ≤ n → (r.state n).sdElementQueue.mutex = some .format := by
    intro n hn
    have hstuck := not_not.mp (hblocked n hn (.sender (exampleEnv 0)) ⟨_, rfl⟩)
    rcases waitsFor_of_senderStep_blocked hstuck with hexited | ⟨u, hwaits⟩
    · exact absurd hexited ((r.runningInv n).sender (r.signum n))
    · exact (r.lockInv n).format_owns hwaits
  have hformat : ∃ᶠ n in atTop, r.action n = .format := by
    apply r.fairFormat
    rw [frequently_atTop]
    intro m
    exact ⟨max m N, le_max_left m N, .format, rfl,
      (r.lockInv _).format_enabled (howner _ (le_max_right m N))⟩
  have hholds : ∀ n, N ≤ n → (r.state n).format.holdsSD = true :=
    fun n hn => (r.lockInv n).sd_format.mp (howner n hn)
  rcases format_leaves hformat (hholds N (le_refl N)) with ⟨m, hm, hleft⟩
  exact absurd (hholds m hm) (by simp [hleft])

/-- An addon does not own the collect mutex for ever. -/
theorem addon_releases {N i : ℕ} (howner : (r.state N).collectQueue.mutex = some (.addon i)) :
    ∃ n, N ≤ n ∧ (r.state n).collectQueue.mutex = none := by
  by_contra hnever
  push Not at hnever
  have hstays : ∀ n, N ≤ n → (r.state n).collectQueue.mutex = some (.addon i) := by
    intro n hn
    refine Machine.InfiniteRun.keeps
      (P := fun s : State => s.collectQueue.mutex = some (.addon i)) ?_ (le_refl N) hn howner
    intro k hk hkept
    exact ((r.probeStep k).collect_owner hkept).resolve_right
      (hnever (k + 1) (Nat.le_succ_of_le hk))
  have hholds : ∀ n, N ≤ n → ((r.state n).addons i).holdsCollect = true := by
    intro n hn
    cases hpc : (r.state n).addons i with
    | idle => exact absurd (hstays n hn) ((r.lockInv n).collect_idle i hpc)
    | cancelled => exact absurd hpc ((r.runningInv n).addons (r.signum n) i)
    | append => rfl
    | unlock => rfl
  rcases r.addonLeaves N i (hholds N (le_refl N)) with ⟨m, hm, hleft⟩
  exact absurd (hholds m hm) (by simp [hleft])

/-- The format thread moves again and again: neither the sender thread nor an addon stays
inside a critical section that it waits for. -/
theorem format_moves : ∃ᶠ n in atTop, r.action n = .format := by
  apply Machine.InfiniteRun.moves_of_fair r.fairFormat
  intro N hblocked
  have hnever : ∀ n, N ≤ n → r.action n ≠ .format := by
    intro n hn haction
    apply hblocked n hn _ rfl
    rw [← haction, Machine.Enabled, r.steps n]
    simp
  have hstays : ∀ n, N ≤ n → (r.state n).format = (r.state N).format := by
    intro n hn
    refine Machine.InfiniteRun.keeps
      (P := fun s : State => s.format = (r.state N).format) ?_ (le_refl N) hn rfl
    intro k hk hkept
    rcases (r.probeStep k).format_cases with ⟨haction, _⟩ | ⟨_, hsame⟩
    · exact absurd haction (hnever k hk)
    · rw [hsame]
      exact hkept
  have hwaits : ∀ n, N ≤ n → ∃ m u, (r.state n).wants .format = some m ∧
      (r.state n).owner m = some u := by
    intro n hn
    have hstuck := not_not.mp (hblocked n hn .format rfl)
    rcases waitsFor_of_formatStep_blocked hstuck with hexited | ⟨u, m, hwants, howner⟩
    · exact absurd hexited ((r.runningInv n).format (r.signum n))
    · exact ⟨m, u, hwants, howner⟩
  rcases hwaits N (le_refl N) with ⟨m, u, hwants, howner⟩
  -- the thread waits for the same mutex all the time
  have howned : ∀ n, N ≤ n → ∃ v, (r.state n).wants .format = some m ∧
      (r.state n).owner m = some v := by
    intro n hn
    rcases hwaits n hn with ⟨m', v, hwants', howner'⟩
    have hsame : (r.state n).wants .format = (r.state N).wants .format := by
      simp only [State.wants, hstays n hn]
    rw [hsame, hwants] at hwants'
    cases hwants'
    exact ⟨v, hsame.trans hwants, howner'⟩
  rcases (r.lockInv N).sender_or_addon_owns hwants howner with ⟨rfl, _⟩ | ⟨rfl, i, rfl⟩
  · have hsender : ∀ n, N ≤ n → (r.state n).sender.holdsSD = true := by
      intro n hn
      rcases howned n hn with ⟨v, hwants', howner'⟩
      rcases (r.lockInv n).sender_or_addon_owns hwants' howner' with ⟨_, rfl⟩ | ⟨hm, _⟩
      · exact (r.lockInv n).sd_sender.mp howner'
      · cases hm
    rcases sender_leaves r.sender_moves (hsender N (le_refl N)) with ⟨k, hk, hleft⟩
    exact absurd (hsender k hk) (by simp [hleft])
  · rcases r.addon_releases howner with ⟨k, hk, hfree⟩
    rcases howned k hk with ⟨v, _, howner'⟩
    change (r.state k).collectQueue.mutex = some v at howner'
    rw [hfree] at howner'
    cases howner'

end FairRun

/-! ## Distances -/

/-- Readings whose rendering was appended to the SD-Element queue. -/
def State.formatted (s : State) : ℕ :=
  (s.history.queued.filter SDElementQueueElement.isData).length

/-- Steps of the format thread up to its next append, while a reading is unpushed. -/
def FormatPC.untilPush : FormatPC → ℕ
  | .exited => 0
  | .push .append _ => 1
  | .push .lock _ => 2
  | .pop => 3
  | .lock => 4
  | .testFirst => 5
  | .testSignum | .unlock => 6
  | .sleep | .advance => 7
  | .push .unlock _ => 8

/-- Steps of the sender thread up to its next call of `sendMessage`, while an element is
pending. -/
def SenderPC.untilSend : SenderPC → ℕ
  | .exited => 0
  | .sendMessage _ => 1
  | .pop => 2
  | .lock => 3
  | .testFirst => 4
  | .reset | .returned _ _ => 5
  | .unlock | .push .unlock _ _ => 6
  | .advance | .push .append _ _ => 7
  | .push .lock _ _ => 8
  | .testQueue _ => 9
  | .time => 10
  | .testSignum => 11
  | .sleep => 12

/-- While a reading is unpushed, a step of the format thread pushes one or comes closer to
it. -/
theorem FormatStep.untilPush_lt {p : Params} {s s' : State} (hhead : HeadInv p s)
    (hsignum : s.signum = 0) (hunpushed : s.unpushed ≠ []) (hs : FormatStep p s s') :
    s'.formatted = s.formatted + 1 ∨
      s'.formatted = s.formatted ∧ s'.unpushed ≠ [] ∧
        s'.format.untilPush < s.format.untilPush := by
  have hformat := hhead.format
  cases hs with
  | exit hpc hsignal => exact absurd hsignum hsignal
  | popNothing hpc hfirst => exact absurd hfirst (hhead.collectQueue_ne_nil hpc)
  | pushAppend hpc =>
      left
      rw [hpc] at hformat
      rcases hformat with ⟨e, _, rfl⟩
      simp [State.formatted]
  | _ => simp_all [State.formatted, State.unpushed, FormatPC.unpushed, FormatPC.untilPush]

/-- The other parties push no reading and take none off the collect queue. -/
theorem ProbeStep.unpushed_ne_nil {p : Params} {s s' : State} {a : Action} (hhead : HeadInv p s)
    (hs : ProbeStep p s a s') (hother : a ≠ .format) :
    s'.formatted = s.formatted ∧ (s.unpushed ≠ [] → s'.unpushed ≠ []) := by
  have hsender := hhead.sender
  cases hs with
  | addon hs =>
      cases hs with
      | append hpc =>
          refine ⟨rfl, fun _ => ?_⟩
          simp [State.unpushed, FormatPC.unpushed_append hhead.format]
      | _ => exact ⟨rfl, id⟩
  | format hs => exact absurd rfl hother
  | sender hs =>
      cases hs with
      | pushAppend hpc =>
          rw [hpc] at hsender
          refine ⟨?_, id⟩
          simp [State.formatted, show _ = renderHeartBeat _ _ from hsender]
      | _ => exact ⟨rfl, id⟩
  | _ => exact ⟨rfl, id⟩

/-- While an element is pending, a step of the sender thread hands one over or comes closer
to it. -/
theorem SenderStep.untilSend_lt {p : Params} {env : SendEnv} {s s' : State}
    (hhead : HeadInv p s) (hsignum : s.signum = 0) (hpending : s.pendingSD ≠ [])
    (hs : SenderStep p env s s') :
    s'.history.handed.length = s.history.handed.length + 1 ∨
      s'.history.handed.length = s.history.handed.length ∧ s'.pendingSD ≠ [] ∧
        s'.sender.untilSend < s.sender.untilSend := by
  cases hs with
  | exit hpc hsignal => exact absurd hsignum hsignal
  | popNothing hpc hfirst => exact absurd hfirst (hhead.sdElementQueue_ne_nil hpc)
  | sendMessage hpc hsend => exact Or.inl (by simp)
  | _ => simp_all [State.pendingSD, SenderPC.pending, SenderPC.untilSend]

/-- The other parties hand nothing over and take nothing off the SD-Element queue. -/
theorem ProbeStep.pendingSD_ne_nil {p : Params} {s s' : State} {a : Action}
    (hhead : HeadInv p s) (hs : ProbeStep p s a s') (hother : ¬ a.IsSender) :
    s'.history.handed = s.history.handed ∧ (s.pendingSD ≠ [] → s'.pendingSD ≠ []) := by
  cases hs with
  | addon hs => cases hs <;> exact ⟨rfl, id⟩
  | format hs =>
      cases hs with
      | pushAppend hpc =>
          refine ⟨rfl, fun _ => ?_⟩
          simp [State.pendingSD, SenderPC.pending_append hhead.sender]
      | _ => exact ⟨rfl, id⟩
  | sender hs => exact absurd ⟨_, rfl⟩ hother
  | _ => exact ⟨rfl, id⟩

/-- The history only grows. -/
theorem ProbeStep.history_mono {p : Params} {s s' : State} {a : Action}
    (hs : ProbeStep p s a s') :
    s.history.pushed <+: s'.history.pushed ∧ s.history.queued <+: s'.history.queued ∧
      s.history.handed <+: s'.history.handed := by
  cases hs with
  | addon hs => cases hs <;> simp
  | format hs => cases hs <;> simp
  | sender hs => cases hs <;> simp
  | _ => simp

/-! ## Progress -/

namespace FairRun

variable {p : Params} (r : FairRun p)

/-- The history of a later state continues that of an earlier one. -/
theorem history_mono {m n : ℕ} (h : m ≤ n) :
    (r.state m).history.pushed <+: (r.state n).history.pushed ∧
      (r.state m).history.queued <+: (r.state n).history.queued ∧
      (r.state m).history.handed <+: (r.state n).history.handed := by
  induction n, h using Nat.le_induction with
  | base => exact ⟨List.prefix_rfl, List.prefix_rfl, List.prefix_rfl⟩
  | succ n _ ih =>
      have hstep := (r.probeStep n).history_mono
      exact ⟨ih.1.trans hstep.1, ih.2.1.trans hstep.2.1, ih.2.2.trans hstep.2.2⟩

/-- While a reading is unpushed the format thread gets to push one. -/
theorem pushes_one {n : ℕ} (hunpushed : (r.state n).unpushed ≠ []) :
    ∃ m, n ≤ m ∧ (r.state n).formatted < (r.state m).formatted := by
  refine Machine.InfiniteRun.leadsTo
    (fun s : State => s.formatted = (r.state n).formatted ∧ s.unpushed ≠ [])
    (fun s : State => (r.state n).formatted < s.formatted) (fun s : State => s.format.untilPush)
    (· = .format) r.format_moves ?_ (le_refl n) ⟨rfl, hunpushed⟩
  rintro k _ ⟨hcount, hne⟩
  rcases (r.probeStep k).format_cases with ⟨_, hs⟩ | ⟨hother, hsame⟩
  · rcases hs.untilPush_lt (r.headInv k) (r.signum k) hne with hpushed | ⟨hkept, hne', hlt⟩
    · left
      omega
    · exact Or.inr ⟨⟨hkept.trans hcount, hne'⟩, le_of_lt hlt, fun _ => hlt⟩
  · rcases (r.probeStep k).unpushed_ne_nil (r.headInv k) hother with ⟨hkept, hne'⟩
    exact Or.inr ⟨⟨hkept.trans hcount, hne' hne⟩, by rw [hsame],
      fun hmove => absurd hmove hother⟩

/-- While an element is pending the sender thread gets to hand one over. -/
theorem hands_over_one {n : ℕ} (hpending : (r.state n).pendingSD ≠ []) :
    ∃ m, n ≤ m ∧ (r.state n).history.handed.length < (r.state m).history.handed.length := by
  refine Machine.InfiniteRun.leadsTo
    (fun s : State => s.history.handed.length = (r.state n).history.handed.length ∧
      s.pendingSD ≠ [])
    (fun s : State => (r.state n).history.handed.length < s.history.handed.length)
    (fun s : State => s.sender.untilSend) Action.IsSender r.sender_moves ?_ (le_refl n)
    ⟨rfl, hpending⟩
  rintro k _ ⟨hcount, hne⟩
  rcases (r.probeStep k).sender_cases with ⟨env, _, hs⟩ | ⟨hother, hsame⟩
  · rcases hs.untilSend_lt (r.headInv k) (r.signum k) hne with hsent | ⟨hkept, hne', hlt⟩
    · left
      omega
    · exact Or.inr ⟨⟨hkept.trans hcount, hne'⟩, le_of_lt hlt, fun _ => hlt⟩
  · rcases (r.probeStep k).pendingSD_ne_nil (r.headInv k) hother with ⟨hkept, hne'⟩
    exact Or.inr ⟨⟨by rw [hkept, hcount], hne' hne⟩, by rw [hsame],
      fun hmove => absurd hmove hother⟩

/-- What was pushed by the addons is rendered and pushed by the format thread. -/
theorem formats (n : ℕ) :
    ∃ m, n ≤ m ∧ (r.state n).history.pushed.length ≤ (r.state m).formatted := by
  refine Machine.InfiniteRun.reaches_count State.formatted ?_ (le_refl n)
  intro k hk hlt
  apply r.pushes_one
  intro hnil
  have hconserved := congrArg List.length (readings_conserved (r.reachable k))
  have hgrown := (r.history_mono hk).1.length_le
  rw [sent_append_pendingSD (r.reachable k), hnil] at hconserved
  simp only [State.formatted, List.map_nil, List.append_nil, List.length_map] at hconserved hlt
  omega

/-- What was queued is handed over. -/
theorem hands_over (n : ℕ) :
    ∃ m, n ≤ m ∧
      (r.state n).history.queued.length ≤ (r.state m).history.handed.length := by
  refine Machine.InfiniteRun.reaches_count (fun s : State => s.history.handed.length) ?_
    (le_refl n)
  intro k hk hlt
  apply r.hands_over_one
  intro hnil
  have hconserved := congrArg List.length (sent_append_pendingSD (r.reachable k))
  have hgrown := (r.history_mono hk).2.1.length_le
  simp only [hnil, List.append_nil, History.sent, List.length_map] at hconserved
  omega

end FairRun

/-- Every reading is delivered.  In a run without a signal that is fair to the format thread
and to the sender thread, and in which addons leave their critical sections, there is for
every state a later one in which the renderings of all readings collected so far have been
handed to `sendMessage`, in order and with nothing but heartbeats between them. -/
theorem readings_delivered {p : Params} (r : FairRun p) (n : ℕ) :
    ∃ m, n ≤ m ∧
      (r.state n).history.pushed.map (render p.glib p.header) <+:
        (r.state m).history.sent.filter SDElementQueueElement.isData := by
  rcases r.formats n with ⟨k, hk, hformatted⟩
  rcases r.hands_over k with ⟨m, hm, hhanded⟩
  refine ⟨m, le_trans hk hm, ?_⟩
  have hpushed := (r.history_mono (le_trans hk hm)).1
  have hqueued := (r.history_mono hm).2.1
  have hall := readings_conserved (r.reachable m)
  have hsent := sent_append_pendingSD (r.reachable m)
  -- what was handed over by then contains what was queued at `k`
  have hcovers : (r.state k).history.queued <+: (r.state m).history.sent := by
    apply List.prefix_of_prefix_length_le hqueued (hsent ▸ List.prefix_append _ _)
    rw [History.sent, List.length_map]
    exact hhanded
  -- both are parts of the renderings of everything collected
  refine List.prefix_of_prefix_length_le (hpushed.map _)
    (Channel.delivered_prefix (probeChannel_reachable (r.reachable m))) ?_
  rw [List.length_map]
  exact le_trans hformatted (hcovers.filter _).length_le

/-! ## Heartbeats -/

/-- Where the sender thread reads the clock, the readings exceed every bound in the end. -/
def FairRun.ClockDiverges {p : Params} (r : FairRun p) : Prop :=
  ∀ bound : Time, ∃ N, ∀ n env, N ≤ n → (r.state n).sender = .time →
    r.action n = .sender env → bound < env.now

/-- Steps of the sender thread up to its next heartbeat, while nothing is pending and the
clock readings are more than `HEARTBEAT` seconds behind `tmpTime`. -/
def SenderPC.untilBeat (tmpTime : Time) : SenderPC → ℕ
  | .exited => 0
  | .push .append _ _ => 1
  | .push .lock _ _ => 2
  | .testQueue collectTime => if collectTime - tmpTime > HEARTBEAT then 3 else 9
  | .time => 4
  | .testSignum => 5
  | .sleep => 6
  | .testFirst => 7
  | .reset | .returned _ _ => 8
  | .unlock => 9
  | _ => 10

/-- While nothing is pending the sender thread leaves `tmpTime` alone. -/
theorem SenderStep.tmpTime_eq {p : Params} {env : SendEnv} {s s' : State} (hhead : HeadInv p s)
    (hpending : s.pendingSD = []) (hs : SenderStep p env s s') : s'.tmpTime = s.tmpTime := by
  have hsender := hhead.sender
  cases hs with
  | busy hpc hbusy _ =>
      rw [State.pendingSD, hpc] at hpending
      exact absurd hpending hbusy
  | pushUnlock hpc =>
      rw [hpc] at hsender
      rw [State.pendingSD, hpc] at hpending
      exact absurd hpending hsender
  | _ => rfl

/-- The other parties leave `tmpTime` alone. -/
theorem ProbeStep.tmpTime_eq {p : Params} {s s' : State} {a : Action} (hs : ProbeStep p s a s')
    (hother : ¬ a.IsSender) : s'.tmpTime = s.tmpTime := by
  cases hs with
  | addon hs => cases hs <;> rfl
  | format hs => cases hs <;> rfl
  | sender hs => exact absurd ⟨_, rfl⟩ hother
  | _ => rfl

/-- While nothing is pending, a step of the sender thread queues a heartbeat or comes closer
to it. -/
theorem SenderStep.untilBeat_lt {p : Params} {env : SendEnv} {s s' : State}
    (hhead : HeadInv p s) (hsignum : s.signum = 0) (hpending : s.pendingSD = [])
    (hclock : s.sender = .time → s.tmpTime + HEARTBEAT < env.now)
    (hs : SenderStep p env s s') :
    s'.pendingSD ≠ [] ∨
      s'.sender.untilBeat s.tmpTime < s.sender.untilBeat s.tmpTime := by
  have hsender := hhead.sender
  cases hs with
  | exit hpc hsignal => exact absurd hsignum hsignal
  | time hpc =>
      right
      have hlate : HEARTBEAT < env.now - s.tmpTime := lt_sub_iff_add_lt'.mpr (hclock hpc)
      simp [SenderPC.untilBeat, hpc, hlate]
  | due hpc hidle hdue =>
      right
      simp only [SenderPC.untilBeat, hpc]
      split <;> omega
  | notDue hpc hempty hnotFirst hrecent =>
      right
      simp [SenderPC.untilBeat, hpc, not_lt.mpr hrecent]
  | pushAppend hpc =>
      left
      simp [State.pendingSD, SenderPC.pending]
  | _ => simp_all [State.pendingSD, SenderPC.pending, SenderPC.untilBeat, SenderPC.HeadOk]

namespace FairRun

variable {p : Params} (r : FairRun p)

/-- While nothing is pending, `tmpTime` stays as it is. -/
theorem tmpTime_eq {n m : ℕ} (hnever : ∀ m, n ≤ m → (r.state m).pendingSD = []) (hm : n ≤ m) :
    (r.state m).tmpTime = (r.state n).tmpTime := by
  refine Machine.InfiniteRun.keeps
    (P := fun s : State => s.tmpTime = (r.state n).tmpTime) ?_ (le_refl n) hm rfl
  intro k hk hkept
  rcases (r.probeStep k).sender_cases with ⟨env, _, hs⟩ | ⟨hother, _⟩
  · rw [hs.tmpTime_eq (r.headInv k) (hnever k hk)]
    exact hkept
  · rw [(r.probeStep k).tmpTime_eq hother]
    exact hkept

/-- Once the clock readings are late enough, a queue that stays empty gets a heartbeat. -/
theorem queues_one (hclock : r.ClockDiverges) (n : ℕ) :
    ∃ m, n ≤ m ∧ (r.state m).pendingSD ≠ [] := by
  by_contra hnever
  push Not at hnever
  rcases hclock ((r.state n).tmpTime + HEARTBEAT) with ⟨N, hlate⟩
  have hgoal : ∃ m, max n N ≤ m ∧ (r.state m).pendingSD ≠ [] := by
    refine Machine.InfiniteRun.leadsTo
      (fun s : State => s.tmpTime = (r.state n).tmpTime) (fun s : State => s.pendingSD ≠ [])
      (fun s : State => s.sender.untilBeat (r.state n).tmpTime) Action.IsSender r.sender_moves
      ?_ (le_refl _) (r.tmpTime_eq hnever (le_max_left n N))
    intro k hk htmp
    have hn : n ≤ k := le_trans (le_max_left n N) hk
    have htmp' := r.tmpTime_eq hnever (Nat.le_succ_of_le hn)
    rcases (r.probeStep k).sender_cases with ⟨env, haction, hs⟩ | ⟨hother, hsame⟩
    · have hreading : (r.state k).sender = .time →
          (r.state k).tmpTime + HEARTBEAT < env.now := by
        intro hpc
        rw [htmp]
        exact hlate k env (le_trans (le_max_right n N) hk) hpc haction
      rcases hs.untilBeat_lt (r.headInv k) (r.signum k) (hnever k hn) hreading with hne | hlt
      · exact Or.inl hne
      · rw [htmp] at hlt
        exact Or.inr ⟨htmp', le_of_lt hlt, fun _ => hlt⟩
    · exact Or.inr ⟨htmp', by rw [hsame], fun hmove => absurd hmove hother⟩
  rcases hgoal with ⟨m, hm, hne⟩
  exact hne (hnever m (le_trans (le_max_left n N) hm))

end FairRun

/-- The probe is never silent for good.  In a fair run whose clock readings exceed every bound,
something is handed to `sendMessage` after every state, whether or not an addon ever delivers
a reading. -/
theorem never_silent {p : Params} (r : FairRun p) (hclock : r.ClockDiverges) (n : ℕ) :
    ∃ m, n ≤ m ∧
      (r.state n).history.handed.length < (r.state m).history.handed.length := by
  rcases r.queues_one hclock n with ⟨k, hk, hpending⟩
  rcases r.hands_over_one hpending with ⟨m, hm, hlt⟩
  exact ⟨m, le_trans hk hm, lt_of_le_of_lt (r.history_mono hk).2.2.length_le hlt⟩

/-! ## A fair run -/

/-- The reading of the unit tests, taken at the given time. -/
def readingAt (now : Time) : CollectQueueElement :=
  { exampleReading with time := now }

/-- A round of the probe: a heartbeat, a reading, its rendering, and both handed over. -/
def exampleRound (now : Time) : List Action :=
  List.replicate 7 (.sender (exampleEnv now)) ++
    (List.replicate 3 (.addon 0 (readingAt now)) ++
      (List.replicate 11 .format ++
        (List.replicate 7 (.sender (exampleEnv now)) ++
          (List.replicate 7 (.sender (exampleEnv now)) ++
            List.replicate 2 (.sender (exampleEnv now))))))

/-- Nobody owns a mutex, and the threads stand where they do between the parts of a round,
after the given number of readings. -/
structure Resting (readings : ℕ) (collect : List CollectQueueElement)
    (queue : List SDElementQueueElement) (sender : SenderPC) (tmpTime : Time) (s : State) :
    Prop where
  pushed : s.history.pushed.length = readings
  collectQueue : s.collectQueue = ⟨none, collect⟩
  sdElementQueue : s.sdElementQueue = ⟨none, queue⟩
  addons : s.addons = fun _ => .idle
  format : s.format = .testSignum
  signum : s.signum = 0
  sender : s.sender = sender
  tmpTime : s.tmpTime = tmpTime

namespace Resting

variable {readings : ℕ} {queue : List SDElementQueueElement}
variable {sender : SenderPC} {tmpTime now : Time} {s : State}

/-- The header of the unit tests fits into the buffers. -/
theorem newSDElement_example (afterOffset : CString) (now : Time) :
    newSDElement exampleHeader afterOffset now =
      some ⟨beforeMsgIDText exampleHeader, afterMsgIDText exampleHeader, afterOffset, now⟩ := by
  rw [newSDElement_eq_some]
  exact ⟨rfl, by decide, by decide⟩

/-- An element sent at its own time is sent. -/
theorem exists_sendMessage {e : SDElementQueueElement} (msgID : UInt16) (he : e.time = now) :
    ∃ result, sendMessage exampleGLib ⟨ascii "127.0.0.1", 443, 0⟩ e msgID (exampleEnv now) =
      some result := by
  have hoffset : messageOffset now e.time = some 0 := by
    simp [messageOffset, he]
  rw [← Option.isSome_iff_exists]
  simp only [sendMessage, exampleEnv, hoffset]
  rfl

/-- The sender thread queues a heartbeat that is due. -/
theorem beats (h : Resting readings [] [] .testSignum tmpTime s)
    (hdue : tmpTime = 0 ∨ now - tmpTime > HEARTBEAT) :
    (probe exampleParams).EndsIn s (List.replicate 7 (.sender (exampleEnv now)))
      (Resting readings [] [renderHeartBeat exampleHeader now] .testFirst now) := by
  rcases h with ⟨hpushed, hcollect, hqueue, haddons, hformat, hsignum, hpc, htmp⟩
  have henv : (exampleEnv now).now = now := rfl
  simp [Machine.EndsIn, Outcome.Holds, Machine.run, probe, step, senderStep, exampleParams, *,
    newSDElement_example, LockedQueue.lock, LockedQueue.append, LockedQueue.unlock]
  constructor <;> simp [*]
  rfl

/-- An addon appends a reading. -/
theorem reads (h : Resting readings [] queue sender tmpTime s) :
    (probe exampleParams).EndsIn s (List.replicate 3 (.addon 0 (readingAt now)))
      (Resting (readings + 1) [readingAt now] queue sender tmpTime) := by
  rcases h with ⟨hpushed, hcollect, hqueue, haddons, hformat, hsignum, hpc, htmp⟩
  simp [Machine.EndsIn, Outcome.Holds, Machine.run, probe, step, addonStep, *,
    LockedQueue.lock, LockedQueue.append, LockedQueue.unlock]
  constructor <;> simp [*]

/-- The format thread moves the reading to the SD-Element queue and goes back to sleep. -/
theorem formats (h : Resting readings [readingAt now] queue sender tmpTime s) :
    (probe exampleParams).EndsIn s (List.replicate 11 .format)
      (Resting readings [] (queue ++ [render exampleGLib exampleHeader (readingAt now)]) sender
        tmpTime) := by
  rcases h with ⟨hpushed, hcollect, hqueue, haddons, hformat, hsignum, hpc, htmp⟩
  have htext : formatElement exampleGLib (readingAt now) =
      some (renderOffset exampleGLib exampleReading) := by
    have hfits : (renderOffset exampleGLib exampleReading).length < 10000 := by decide
    exact formatElement_eq_some.mpr ⟨rfl, hfits⟩
  simp [Machine.EndsIn, Outcome.Holds, Machine.run, probe, step, formatStep, exampleParams, *,
    newSDElement_example, LockedQueue.lock, LockedQueue.append, LockedQueue.unlock,
    LockedQueue.advance]
  constructor <;> simp [*]
  rfl

/-- The sender thread hands over an element of the current second. -/
theorem sends {e : SDElementQueueElement} (he : e.time = now)
    (h : Resting readings [] (e :: queue) .testFirst now s) :
    (probe exampleParams).EndsIn s (List.replicate 7 (.sender (exampleEnv now)))
      (Resting readings [] queue .testFirst now) := by
  rcases h with ⟨hpushed, hcollect, hqueue, haddons, hformat, hsignum, hpc, htmp⟩
  rcases exists_sendMessage (s.msgID + 1) he with ⟨result, hsend⟩
  simp [Machine.EndsIn, Outcome.Holds, Machine.run, probe, step, senderStep, exampleParams, *,
    LockedQueue.lock, LockedQueue.unlock, LockedQueue.advance]
  constructor <;> simp [*]

/-- The sender thread sleeps when the queue is empty. -/
theorem sleeps (h : Resting readings [] [] .testFirst tmpTime s) :
    (probe exampleParams).EndsIn s (List.replicate 2 (.sender (exampleEnv now)))
      (Resting readings [] [] .testSignum tmpTime) := by
  rcases h with ⟨hpushed, hcollect, hqueue, haddons, hformat, hsignum, hpc, htmp⟩
  simp [Machine.EndsIn, Outcome.Holds, Machine.run, probe, step, senderStep, *]
  constructor <;> simp [*]

/-- A round leads from rest to rest. -/
theorem round (h : Resting readings [] [] .testSignum tmpTime s)
    (hdue : tmpTime = 0 ∨ now - tmpTime > HEARTBEAT) :
    (probe exampleParams).EndsIn s (exampleRound now)
      (Resting (readings + 1) [] [] .testSignum now) := by
  apply (h.beats hdue).append
  intro s h
  apply h.reads.append
  intro s h
  apply h.formats.append
  intro s h
  apply (h.sends rfl).append
  intro s h
  apply (h.sends rfl).append
  intro s h
  exact h.sleeps

end Resting

/-- The time of a round. -/
def roundTime (q : ℕ) : Time :=
  100 + 20 * q

/-- Rest before round `q`. -/
def RestingAt (q : ℕ) (s : State) : Prop :=
  ∃ tmpTime, (tmpTime = 0 ∨ roundTime q - tmpTime > HEARTBEAT) ∧
    Resting q [] [] .testSignum tmpTime s

/-- There is a fair run whose clock readings exceed every bound. -/
theorem exists_fairRun : ∃ r : FairRun exampleParams, r.ClockDiverges ∧
    (∀ q, RestingAt q (r.state (37 * q))) ∧
    ∀ q j, j < 37 → (exampleRound (roundTime q))[j]? = some (r.action (37 * q + j)) := by
  have hstart : RestingAt 0 State.start :=
    ⟨0, Or.inl rfl, ⟨rfl, rfl, rfl, rfl, rfl, rfl, rfl, rfl⟩⟩
  have hround : ∀ q s, RestingAt q s →
      (probe exampleParams).EndsIn s (exampleRound (roundTime q)) (RestingAt (q + 1)) := by
    rintro q s ⟨tmpTime, hdue, h⟩
    have hnext : roundTime (q + 1) - roundTime q > HEARTBEAT := by
      have hint : (100 + 20 * ((q + 1 : ℕ) : Int)) - (100 + 20 * (q : Int)) > 10 := by omega
      exact hint
    rcases (h.round hdue).exists_next with ⟨t, ht⟩
    rw [Machine.EndsIn, ht]
    exact ⟨_, Or.inr hnext, (h.round hdue).of_run ht⟩
  rcases Machine.exists_infiniteRun_of_rounds (M := probe exampleParams) (by decide : 0 < 37)
    (fun q => exampleRound (roundTime q)) (fun _ => rfl) RestingAt hstart hround with
    ⟨r, hrest, haction⟩
  have hmem : ∀ n, r.action n ∈ exampleRound (roundTime (n / 37)) := by
    intro n
    have hget := haction (n / 37) (n % 37) (Nat.mod_lt n (by decide))
    rw [Nat.div_add_mod] at hget
    exact List.mem_of_getElem? hget
  refine ⟨⟨r, ?_, ?_, ?_, ?_⟩, ?_, hrest, haction⟩
  · intro n signum hsignal
    have hin := hmem n
    rw [hsignal] at hin
    simp [exampleRound] at hin
  · intro n i _
    rcases hrest n with ⟨_, _, h⟩
    exact ⟨37 * n, Nat.le_mul_of_pos_left n (by decide), by rw [h.addons]; rfl⟩
  · intro _
    rw [frequently_atTop]
    intro n
    exact ⟨37 * n + 10, by omega, (Option.some.inj (haction n 10 (by decide))).symm⟩
  · intro _
    rw [frequently_atTop]
    intro n
    exact ⟨37 * n + 0, by omega, _, (Option.some.inj (haction n 0 (by decide))).symm⟩
  · intro bound
    refine ⟨37 * bound.toNat, ?_⟩
    intro n env hn _ hsender
    have hin := hmem n
    rw [hsender] at hin
    have henv : env = exampleEnv (roundTime (n / 37)) := by
      simpa [exampleRound] using hin
    have hlate : bound.toNat ≤ n / 37 := by
      rw [Nat.le_div_iff_mul_le (by decide)]
      omega
    have hint : ∀ b : Int, b.toNat ≤ n / 37 → b < 100 + 20 * ((n / 37 : ℕ) : Int) := by
      intro b hb
      omega
    rw [henv]
    exact hint bound hlate

/-- In the fair run the reading of the first round is handed over. -/
theorem readings_delivered_run :
    ∃ (r : FairRun exampleParams) (m : ℕ), (r.state 37).history.pushed.length = 1 ∧ 37 ≤ m ∧
      (r.state 37).history.pushed.map (render exampleGLib exampleHeader) <+:
        (r.state m).history.sent.filter SDElementQueueElement.isData := by
  rcases exists_fairRun with ⟨r, _, hrest, _⟩
  rcases readings_delivered r 37 with ⟨m, hm, hdelivered⟩
  rcases hrest 1 with ⟨_, _, h⟩
  exact ⟨r, m, h.pushed, hm, hdelivered⟩

/-- In the fair run the second round hands over more than the first. -/
theorem never_silent_run :
    ∃ (r : FairRun exampleParams) (m : ℕ), r.ClockDiverges ∧ 37 ≤ m ∧
      (r.state 37).history.handed.length < (r.state m).history.handed.length := by
  rcases exists_fairRun with ⟨r, hclock, _, _⟩
  rcases never_silent r hclock 37 with ⟨m, hm, hlt⟩
  exact ⟨r, m, hclock, hm, hlt⟩

end AlertProbe
