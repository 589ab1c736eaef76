import AlertProbe.Model.Threads

/-!
# Undefined steps

A step of the probe is undefined only where it prints a reading, fills in an element of
the SD-Element queue, or calls `sendMessage`.

Main results:

- Theorem `formatStep_undefined`: what overflows in an undefined step of the format thread.
- Theorem `senderStep_undefined`: the same for the sender thread.
- Theorem `first_subset_pushed`: what the format thread prints was put on the collect queue.
-/

namespace AlertProbe

open Foundations

/-- The format thread overflows a buffer of `popCollectQueue` or of `pushSDElementQueue`. -/
theorem formatStep_undefined {p : Params} {s : State} (h : formatStep p s = .undefined) :
    ∃ e next, s.collectQueue.first = e :: next ∧
      (formatElement p.glib e = none ∨
        ∃ text, formatElement p.glib e = some text ∧ newSDElement p.header text e.time = none) := by
  unfold formatStep at h
  split at h
  case h_4 hpc =>
    split at h
    · cases h
    · rename_i e next hfirst
      refine ⟨e, next, hfirst, ?_⟩
      split at h
      · rename_i htext
        exact Or.inl htext
      · rename_i text htext
        split at h
        · rename_i hnew
          exact Or.inr ⟨text, htext, hnew⟩
        · cases h
  all_goals
    first
    | cases h
    | (split at h <;> cases h)

/-- The sender thread overflows a buffer of `pushSDElementQueue`, or `sendMessage` is
undefined. -/
theorem senderStep_undefined {p : Params} {env : SendEnv} {s : State}
    (h : senderStep p env s = .undefined) :
    (∃ time, newSDElement p.header (ascii "") time = none) ∨
      ∃ e, s.sender = .sendMessage e ∧ sendMessage p.glib p.sender e s.msgID env = none := by
  unfold senderStep at h
  split at h
  case h_3 collectTime hpc =>
    split at h
    · split at h
      · split at h
        · rename_i hnew
          exact Or.inl ⟨collectTime, hnew⟩
        · cases h
      · cases h
    · cases h
  case h_11 e hpc =>
    split at h
    · rename_i hsend
      exact Or.inr ⟨e, hpc, hsend⟩
    · cases h
  all_goals
    first
    | cases h
    | (split at h <;> cases h)

/-- Only the two threads have undefined steps. -/
theorem step_undefined {p : Params} {s : State} {a : Action} (h : step p s a = .undefined) :
    formatStep p s = .undefined ∨ ∃ env, senderStep p env s = .undefined := by
  unfold step at h
  cases a with
  | addon i e =>
      simp only [addonStep] at h
      split at h
      · split at h <;> cases h
      · cases h
      · cases h
      · cases h
  | cancel i =>
      simp only at h
      split at h <;> cases h
  | format => exact Or.inl h
  | sender env => exact Or.inr ⟨env, h⟩
  | signal signum =>
      simp only at h
      split at h
      · cases h
      · split at h <;> cases h

/-- Every reading on the collect queue was put there by an addon. -/
theorem first_subset_pushed {p : Params} {s : State} (h : (probe p).Reachable s) :
    s.collectQueue.first ⊆ s.history.pushed := by
  apply h.invariant (P := fun s => s.collectQueue.first ⊆ s.history.pushed)
  · exact List.nil_subset _
  · intro s a s' hsub hstep
    cases step_cases hstep with
    | addon haddon =>
        cases haddon with
        | append _ =>
            apply List.append_subset.mpr
            constructor
            · exact List.subset_append_of_subset_left _ hsub
            · exact List.subset_append_right _ _
        | lock _ _ => exact hsub
        | unlock _ => exact hsub
    | format hformat =>
        cases hformat with
        | advance _ => exact List.Subset.trans (List.tail_subset _) hsub
        | _ => exact hsub
    | sender hsender => cases hsender <;> exact hsub
    | _ => exact hsub

end AlertProbe
