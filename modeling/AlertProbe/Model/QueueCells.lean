import AlertProbe.Foundations.LinkedCells
import AlertProbe.Model.Threads

/-!
# The cells of the SD-Element queue

`pushSDElementQueue` and `popSDElementQueue` on a heap of linked elements.  A critical
section is one step; so is what `pushSDElementQueue` does in front of its critical
section, which other threads do not see.  `calloc` gives an address that is not live.
Undefined are the use of an element that is not live, an overflow, and a search for the
last element that never ends.

The text at `afterOffset` is a part of its element here, and goes with it.

Main results:

- Theorem `queueStep_cases`: what a step can do, one constructor for each branch.
-/

namespace AlertProbe

open Foundations

variable {Address : Type} [DecidableEq Address]

/-- The heap and the pointers to it. -/
structure QueueState (Address : Type) where
  heap : Cells Address SDElementQueueElement
  /-- `sdElementQueue->first` -/
  first : Option Address
  /-- `new`, in the calls of `pushSDElementQueue` that have not linked it. -/
  pending : List Address
  /-- Calls of `sendMessage`, as a history variable. -/
  sent : List Handed

/-- No element has been allocated. -/
def QueueState.start : QueueState Address where
  heap := ∅
  first := none
  pending := []
  sent := []

/-- `pushSDElementQueue` in front of its critical section: allocate the element and fill it in. -/
def newElement (header : SDElementHeader) (address : Address) (afterOffset : CString)
    (time : Time) (s : QueueState Address) : Outcome (QueueState Address) :=
  if address ∈ s.heap then .blocked
  else
    match newSDElement header afterOffset time with
    | none => .undefined
    | some new => .next
        { s with
          heap := s.heap.insert address ⟨new, none⟩
          pending := address :: s.pending }

/-- The critical section of `pushSDElementQueue`. -/
def linkElement (new : Address) (s : QueueState Address) : Outcome (QueueState Address) :=
  if new ∈ s.pending then
    match s.first with
    | some first =>
        match findLast s.heap first with
        | none => .undefined
        | some lastElement => .next
            { s with
              heap := setNext s.heap lastElement new
              pending := s.pending.erase new }
    | none => .next { s with first := some new, pending := s.pending.erase new }
  else .blocked

/-- The critical section of `popSDElementQueue`. -/
def popElement (glib : GLib) (params : SenderParams) (msgID : UInt16) (env : SendEnv)
    (s : QueueState Address) : Outcome (QueueState Address) :=
  match s.first with
  | none => .next s
  | some popedElement =>
      match s.heap.lookup popedElement with
      | none => .undefined
      | some cell =>
          match sendMessage glib params cell.value msgID env with
          | none => .undefined
          | some result => .next
              { s with
                heap := s.heap.erase popedElement
                first := cell.next
                sent := s.sent ++ [⟨cell.value, msgID, env, result⟩] }

/-- The steps of the calls of both functions. -/
inductive QueueAction (Address : Type) where
  | new (address : Address) (afterOffset : CString) (time : Time)
  | link (new : Address)
  | pop (msgID : UInt16) (env : SendEnv)

/-- The calls of both functions, interleaved between their critical sections. -/
def queueCells (p : Params) : Machine (QueueState Address) (QueueAction Address) where
  initial := QueueState.start
  step s a :=
    match a with
    | .new address afterOffset time => newElement p.header address afterOffset time s
    | .link new => linkElement new s
    | .pop msgID env => popElement p.glib p.sender msgID env s

/-- The elements that `first` leads to. -/
def QueueState.elements (s : QueueState Address) : List SDElementQueueElement :=
  (contents s.heap s.heap.keys.card s.first).map Prod.snd

/-! ## What a step can do -/

/-- The steps of the calls of both functions. -/
inductive QueueStep (p : Params) (s : QueueState Address) :
    QueueAction Address → QueueState Address → Prop where
  | new {address : Address} {afterOffset : CString} {time : Time} {new : SDElementQueueElement}
      (hfresh : address ∉ s.heap) (hnew : newSDElement p.header afterOffset time = some new) :
      QueueStep p s (.new address afterOffset time)
        { s with
          heap := s.heap.insert address ⟨new, none⟩
          pending := address :: s.pending }
  | linkFirst {new : Address} (hpending : new ∈ s.pending) (hfirst : s.first = none) :
      QueueStep p s (.link new) { s with first := some new, pending := s.pending.erase new }
  | linkLast {new first lastElement : Address} (hpending : new ∈ s.pending)
      (hfirst : s.first = some first) (hlast : TailSearch s.heap first lastElement) :
      QueueStep p s (.link new)
        { s with heap := setNext s.heap lastElement new, pending := s.pending.erase new }
  | popNothing {msgID : UInt16} {env : SendEnv} (hfirst : s.first = none) :
      QueueStep p s (.pop msgID env) s
  | pop {msgID : UInt16} {env : SendEnv} {popedElement : Address} {next : Option Address}
      {element : SDElementQueueElement} {result : SendResult}
      (hfirst : s.first = some popedElement)
      (hcell : s.heap.lookup popedElement = some ⟨element, next⟩)
      (hsend : sendMessage p.glib p.sender element msgID env = some result) :
      QueueStep p s (.pop msgID env)
        { s with
          heap := s.heap.erase popedElement
          first := next
          sent := s.sent ++ [⟨element, msgID, env, result⟩] }

/-- A step is one of these. -/
theorem queueStep_cases {p : Params} {s s' : QueueState Address} {a : QueueAction Address}
    (h : (queueCells p).step s a = .next s') : QueueStep p s a s' := by
  cases a with
  | new address afterOffset time =>
      simp only [queueCells, newElement] at h
      by_cases hlive : address ∈ s.heap
      · rw [if_pos hlive] at h
        cases h
      · rw [if_neg hlive] at h
        split at h
        · cases h
        · rename_i new hnew
          cases h
          exact .new hlive hnew
  | link new =>
      simp only [queueCells, linkElement] at h
      by_cases hpending : new ∈ s.pending
      · rw [if_pos hpending] at h
        split at h
        · rename_i first hfirst
          split at h
          · cases h
          · rename_i lastElement hlast
            cases h
            exact .linkLast hpending hfirst (findLast_eq_some.mp hlast)
        · rename_i hfirst
          cases h
          exact .linkFirst hpending hfirst
      · rw [if_neg hpending] at h
        cases h
  | pop msgID env =>
      simp only [queueCells, popElement] at h
      split at h
      · rename_i hfirst
        cases h
        exact .popNothing hfirst
      · rename_i popedElement hfirst
        split at h
        · cases h
        · rename_i cell hcell
          split at h
          · cases h
          · rename_i result hsend
            cases h
            exact .pop hfirst hcell hsend

/-! ## The list that stands for the queue -/

/-- A functional queue, and the calls of `sendMessage`. -/
structure ListState where
  queue : List SDElementQueueElement
  sent : List Handed

/-- The calls of both functions on a list. -/
inductive ListAction where
  | push (afterOffset : CString) (time : Time)
  | pop (msgID : UInt16) (env : SendEnv)

/-- The call of `sendMessage` in a call of `popSDElementQueue`. -/
def PopResult.handed (result : PopResult) (queue : List SDElementQueueElement) (msgID : UInt16)
    (env : SendEnv) : List Handed :=
  match queue, result.sent with
  | popedElement :: _, some sent => [⟨popedElement, msgID, env, sent⟩]
  | _, _ => []

/-- The list as a machine. -/
def queueList (p : Params) : Machine ListState ListAction where
  initial := ⟨[], []⟩
  step s a :=
    match a with
    | .push afterOffset time =>
        match pushSDElementQueue p.header s.queue afterOffset time with
        | none => .undefined
        | some queue => .next { s with queue := queue }
    | .pop msgID env =>
        match popSDElementQueue p.glib p.sender s.queue msgID env with
        | none => .undefined
        | some result => .next
            { queue := result.queue
              sent := s.sent ++ result.handed s.queue msgID env }

/-- A call of either function; `pushSDElementQueue` comes with the address that `calloc` returns
to it. -/
inductive Call (Address : Type) where
  | push (address : Address) (afterOffset : CString) (time : Time)
  | pop (msgID : UInt16) (env : SendEnv)

/-- The steps of a call. -/
def Call.actions : Call Address → List (QueueAction Address)
  | .push address afterOffset time => [.new address afterOffset time, .link address]
  | .pop msgID env => [.pop msgID env]

/-- The call on a list. -/
def Call.action : Call Address → ListAction
  | .push _ afterOffset time => .push afterOffset time
  | .pop msgID env => .pop msgID env

end AlertProbe
