import AlertProbe.Pipeline.Locks

/-!
# Message IDs

The sender thread increments a 16-bit counter when it sees an element, outside
the critical section, and resets it after the element numbered 65535.  Because
the thread is the only consumer, the pop finds the element, so every increment
belongs to one call of `sendMessage`.

Main results:

- Theorem `msgIDInv_of_reachable`: the counter at every program point, in terms
  of the number of calls of `sendMessage` so far.
- Theorem `message_ids`: the ID of every message handed over.
-/

namespace AlertProbe

open Foundations

/-- Largest message ID, after which the numbering starts again with 1. -/
def lastMsgID : Nat := 65535

/-- The ID of the message handed over after `n` others. -/
def msgIDOf (n : Nat) : Nat :=
  n % lastMsgID + 1

/-- The counter at a program point of the sender thread after `sent` calls of `sendMessage`. -/
def SenderPC.MsgIDOk (sent : Nat) (msgID : UInt16) : SenderPC → Prop
  | .lock | .pop | .sendMessage _ => msgID.toNat = msgIDOf sent
  | .advance | .unlock | .reset => ∃ before, sent = before + 1 ∧ msgID.toNat = msgIDOf before
  | _ => msgID.toNat = sent % lastMsgID

/-- The counter, and the IDs of the messages handed over so far. -/
structure MsgIDInv (s : State) : Prop where
  counter : s.sender.MsgIDOk s.history.handed.length s.msgID
  handed : s.history.handed.map (fun handed => handed.msgID.toNat) =
    (List.range s.history.handed.length).map msgIDOf

/-- Incrementing the counter gives the ID of the next message. -/
theorem toNat_increment {sent : Nat} {msgID : UInt16} (h : msgID.toNat = sent % lastMsgID) :
    (msgID + 1).toNat = msgIDOf sent := by
  have hlt : sent % lastMsgID < 65535 := Nat.mod_lt _ (by decide)
  rw [UInt16.toNat_add, h, msgIDOf, UInt16.toNat_one]
  omega

/-- After the reset the counter is the number of messages sent, modulo the largest ID. -/
theorem toNat_reset {before : Nat} {msgID : UInt16} (h : msgID.toNat = msgIDOf before) :
    (resetMsgID msgID).toNat = (before + 1) % lastMsgID := by
  unfold msgIDOf lastMsgID at h
  unfold resetMsgID lastMsgID
  split
  · rename_i hlast
    rw [hlast] at h
    simp only [UInt16.reduceToNat] at h ⊢
    omega
  · rename_i hnotLast
    have hne : msgID.toNat ≠ 65535 := fun heq => hnotLast (UInt16.toNat_inj.mp heq)
    omega

/-- The steps of the sender thread keep the counter and the IDs. -/
theorem MsgIDInv.senderStep {p : Params} {env : SendEnv} {s s' : State} (h : MsgIDInv s)
    (hhead : HeadInv p s) (hs : SenderStep p env s s') : MsgIDInv s' := by
  have hcounter := h.counter
  cases hs with
  | popNothing hpc hfirst => exact absurd hfirst (hhead.sdElementQueue_ne_nil hpc)
  | sawElement hpc hfirst =>
      rw [hpc] at hcounter
      exact ⟨toNat_increment hcounter, h.handed⟩
  | sendMessage hpc hsend =>
      rw [hpc] at hcounter
      refine ⟨⟨s.history.handed.length, by simp, hcounter⟩, ?_⟩
      change s.msgID.toNat = msgIDOf s.history.handed.length at hcounter
      simp [List.range_succ, h.handed, hcounter]
  | reset hpc =>
      rw [hpc] at hcounter
      rcases hcounter with ⟨before, hsent, hmsgID⟩
      refine ⟨?_, h.handed⟩
      simp only [SenderPC.MsgIDOk, hsent]
      exact toNat_reset hmsgID
  | _ =>
      refine ⟨?_, h.handed⟩
      simp_all [SenderPC.MsgIDOk]

/-- Every step of the probe keeps the counter and the IDs. -/
theorem MsgIDInv.step {p : Params} {s s' : State} {a : Action} (h : MsgIDInv s)
    (hhead : HeadInv p s) (hs : ProbeStep p s a s') : MsgIDInv s' := by
  cases hs with
  | addon hs => cases hs <;> exact ⟨h.counter, h.handed⟩
  | format hs => cases hs <;> exact ⟨h.counter, h.handed⟩
  | sender hs => exact h.senderStep hhead hs
  | _ => exact ⟨h.counter, h.handed⟩

/-- The counter and the IDs in every reachable state. -/
theorem msgIDInv_of_reachable {p : Params} {s : State} (h : (probe p).Reachable s) :
    MsgIDInv s := by
  apply h.invariant'
  · exact ⟨rfl, rfl⟩
  · intro s a s' hs hinv hstep
    exact hinv.step (headInv_of_reachable hs) (step_cases hstep)

/-- The ID of the message at position `k`, counted from 0. -/
theorem msgID_eq {p : Params} {s : State} (h : (probe p).Reachable s) {k : Nat}
    {handed : Handed} (hk : s.history.handed[k]? = some handed) :
    handed.msgID.toNat = msgIDOf k := by
  rcases List.getElem?_eq_some_iff.mp hk with ⟨hlen, hget⟩
  have hall := congrArg (fun ids => ids[k]?) (msgIDInv_of_reachable h).handed
  rw [← hget]
  simpa [hlen] using hall

/-- IDs repeat no sooner than after the largest one. -/
theorem msgIDOf_ne {i j : Nat} (hij : i < j) (hclose : j - i < lastMsgID) :
    msgIDOf i ≠ msgIDOf j := by
  unfold msgIDOf lastMsgID at *
  omega

/-- Message IDs run from 1 to 65535 over and over: the message at position `k`, counted from
0, has the ID `k % 65535 + 1`; so ID 0 is never sent and fewer than 65535 positions apart no
ID occurs twice.  Each increment is for one message: whenever the drain loop tests the queue,
the counter is the number of messages handed over, modulo 65535. -/
theorem message_ids {p : Params} {s : State} (h : (probe p).Reachable s) :
    (∀ (k : Nat) (handed : Handed), s.history.handed[k]? = some handed →
      handed.msgID.toNat = k % 65535 + 1 ∧ handed.msgID ≠ 0) ∧
    (∀ (i j : Nat) (first second : Handed), i < j → j - i < 65535 →
      s.history.handed[i]? = some first → s.history.handed[j]? = some second →
        first.msgID ≠ second.msgID) ∧
    (s.sender = .testFirst → s.msgID.toNat = s.history.handed.length % 65535) := by
  refine ⟨?_, ?_, ?_⟩
  · intro k handed hk
    have hid := msgID_eq h hk
    refine ⟨hid, ?_⟩
    intro hzero
    rw [hzero] at hid
    simp [msgIDOf] at hid
  · intro i j first second hij hclose hi hj heq
    apply msgIDOf_ne hij hclose
    rw [← msgID_eq h hi, ← msgID_eq h hj, heq]
  · intro hpc
    have hcounter := (msgIDInv_of_reachable h).counter
    rw [hpc] at hcounter
    exact hcounter

/-- The first two messages of a run have the IDs 1 and 2. -/
theorem message_ids_run :
    ∃ s : State, s.history.handed.length = 2 ∧
      ∀ (k : Nat) (handed : Handed), s.history.handed[k]? = some handed →
        handed.msgID.toNat = k % 65535 + 1 := by
  have hrun : (probe exampleParams).EndsIn State.start
      (List.replicate 3 (Action.addon 0 exampleReading) ++ List.replicate 11 Action.format ++
        List.replicate 24 (Action.sender (exampleEnv 100)))
      (fun s => s.history.handed.length = 2) := by
    decide
  rcases Machine.exists_reachable_of_endsIn hrun with ⟨s, hs, hlength⟩
  exact ⟨s, hlength, fun k handed hk => ((message_ids hs).1 k handed hk).1⟩

end AlertProbe
