import AlertProbe.Foundations.TransitionSystem

/-!
# First-in first-out channels

A channel takes values in at one end and gives them out at the other.  It is the
abstract purpose of a queue between two parties: nothing is lost, nothing is
given out twice, and the order is kept.

Main results:

- Theorem `Channel.conserved`: the values given out, followed by those under
  way, are the values taken in.
- Theorem `Channel.delivered_prefix`: what was given out is a prefix of what was
  taken in.
-/

namespace Foundations

universe u

/-- The contents of a channel and its history. -/
structure Channel (β : Type u) where
  accepted : List β
  inFlight : List β
  delivered : List β

namespace Channel

variable {β : Type u}

/-- The two moves of a channel. -/
inductive Move (β : Type u) where
  | accept (value : β)
  | deliver

/-- Take a value in at the end of the channel. -/
def accept (c : Channel β) (value : β) : Channel β where
  accepted := c.accepted ++ [value]
  inFlight := c.inFlight ++ [value]
  delivered := c.delivered

/-- The channel as a machine: it starts empty and delivers its oldest value. -/
def machine (β : Type u) : Machine (Channel β) (Move β) where
  initial := ⟨[], [], []⟩
  step c
    | .accept value => .next (c.accept value)
    | .deliver =>
        match c.inFlight with
        | [] => .blocked
        | value :: rest => .next
            { accepted := c.accepted
              inFlight := rest
              delivered := c.delivered ++ [value] }

/-- Taking a value in is a step of the channel. -/
theorem step_accept (c : Channel β) (value : β) :
    (machine β).Step c (c.accept value) :=
  ⟨.accept value, rfl⟩

/-- Giving the oldest value out is a step of the channel. -/
theorem step_deliver {accepted rest delivered : List β} {value : β} :
    (machine β).Step ⟨accepted, value :: rest, delivered⟩
      ⟨accepted, rest, delivered ++ [value]⟩ :=
  ⟨.deliver, rfl⟩

/-- No loss, no duplication, no reordering. -/
theorem conserved {c : Channel β} (h : (machine β).Reachable c) :
    c.delivered ++ c.inFlight = c.accepted := by
  refine h.invariant (P := fun c => c.delivered ++ c.inFlight = c.accepted) rfl ?_
  intro c move c' hc hstep
  cases move with
  | accept value =>
      cases hstep
      simp only [accept]
      rw [← List.append_assoc, hc]
  | deliver =>
      simp only [machine] at hstep
      split at hstep
      · cases hstep
      · rename_i value rest hflight
        cases hstep
        rw [← hc, hflight]
        simp

/-- Values are given out in the order in which they were taken in, each at most once. -/
theorem delivered_prefix {c : Channel β} (h : (machine β).Reachable c) :
    c.delivered <+: c.accepted :=
  ⟨c.inFlight, conserved h⟩

end Channel

end Foundations
