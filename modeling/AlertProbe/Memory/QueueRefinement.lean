import AlertProbe.Model.QueueCells

/-!
# The linked queue refines a list

The elements that are live are those on the chain from `first` and, apart from them,
those that `pushSDElementQueue` has allocated and not yet linked.  From this invariant
follows that no link dangles, that the search for the last element ends, and that the
calls of `pushSDElementQueue` and `popSDElementQueue` do to the chain what the functions
of the same names do to a list.

Main results:

- Theorems `Holds.link` and `Holds.pop`: the critical sections, step by step.
- Theorem `holds_reachable`: the invariant in every reachable state.
- Theorem `run_calls`: a sequence of calls on cells and on a list.
- Theorem `queue_cells_refine_list`: all of it together.
-/

namespace AlertProbe

open Foundations

variable {Address : Type} [DecidableEq Address]

/-! ## The invariant -/

/-- The live elements are those of the listed chain and the pending ones. -/
def QueueState.Holds (s : QueueState Address)
    (l : List (Address × SDElementQueueElement)) : Prop :=
  Represents s.heap s.first s.pending l

/-- At first there is nothing. -/
theorem holds_start : (QueueState.start : QueueState Address).Holds [] :=
  Represents.empty

/-- What `first` leads to are the elements of the chain. -/
theorem QueueState.Holds.elements {s : QueueState Address}
    {l : List (Address × SDElementQueueElement)} (h : s.Holds l) :
    s.elements = l.map Prod.snd := by
  rw [QueueState.elements, h.chain.contents_eq h.chain.length_le]

/-- `pushSDElementQueue` allocates an element that is not on the chain. -/
theorem QueueState.Holds.new {s : QueueState Address}
    {l : List (Address × SDElementQueueElement)} (h : s.Holds l) {address : Address}
    (hfresh : address ∉ s.heap) (new : SDElementQueueElement) :
    QueueState.Holds
      { s with
        heap := s.heap.insert address ⟨new, none⟩
        pending := address :: s.pending } l :=
  Represents.alloc h hfresh new

/-- The critical section of `pushSDElementQueue` ends, and appends the new element to the
chain. -/
theorem QueueState.Holds.link {s : QueueState Address}
    {l : List (Address × SDElementQueueElement)} (h : s.Holds l) {new : Address}
    (hpending : new ∈ s.pending) :
    ∃ element s', s.heap.lookup new = some ⟨element, none⟩ ∧ linkElement new s = .next s' ∧
      s'.Holds (l ++ [(new, element)]) ∧ s'.pending = s.pending.erase new ∧
      s'.sent = s.sent := by
  unfold linkElement
  rw [if_pos hpending]
  cases hfirst : s.first with
  | none =>
      have hnone : Represents s.heap none s.pending l := by
        rw [← hfirst]
        exact h
      obtain ⟨element, hcell, hlinked⟩ := hnone.linkFirst hpending
      exact ⟨element, _, hcell, rfl, hlinked, rfl, rfl⟩
  | some first =>
      have hsome : Represents s.heap (some first) s.pending l := by
        rw [← hfirst]
        exact h
      obtain ⟨lastElement, element, hlast, _, hcell, hlinked⟩ := hsome.linkLast hpending
      simp only [findLast_eq_some.mpr hlast]
      exact ⟨element, _, hcell, rfl, hlinked, rfl, rfl⟩

/-- The critical section of `popSDElementQueue` leaves an empty queue alone. -/
theorem QueueState.Holds.popNothing {s : QueueState Address} (h : s.Holds []) (glib : GLib)
    (params : SenderParams) (msgID : UInt16) (env : SendEnv) :
    popElement glib params msgID env s = .next s := by
  have hfirst : s.first = none := h.chain.first_eq_none
  simp only [popElement, hfirst]

/-- The critical section of `popSDElementQueue` hands the first element to `sendMessage` and frees
it. -/
theorem QueueState.Holds.pop {s : QueueState Address}
    {l : List (Address × SDElementQueueElement)} {address : Address}
    {element : SDElementQueueElement} (h : s.Holds ((address, element) :: l)) (glib : GLib)
    (params : SenderParams) (msgID : UInt16) (env : SendEnv) :
    (sendMessage glib params element msgID env = none ∧
      popElement glib params msgID env s = .undefined) ∨
    ∃ result s', sendMessage glib params element msgID env = some result ∧
      popElement glib params msgID env s = .next s' ∧ s'.Holds l ∧
      s'.heap = s.heap.erase address ∧ s'.pending = s.pending ∧
      s'.sent = s.sent ++ [⟨element, msgID, env, result⟩] := by
  have hfirst : s.first = some address := h.chain.first_eq_some
  have hsome : Represents s.heap (some address) s.pending ((address, element) :: l) := by
    rw [← hfirst]
    exact h
  obtain ⟨next, hcell, hremoved⟩ := hsome.removeFirst
  simp only [popElement, hfirst, hcell]
  cases hsend : sendMessage glib params element msgID env with
  | none => exact Or.inl ⟨rfl, rfl⟩
  | some result => exact Or.inr ⟨result, _, rfl, rfl, hremoved, rfl, rfl, rfl⟩

/-- Every step keeps the invariant, for the chain that it makes. -/
theorem QueueState.Holds.step {p : Params} {s s' : QueueState Address} {a : QueueAction Address}
    {l : List (Address × SDElementQueueElement)} (h : s.Holds l)
    (hstep : (queueCells p).step s a = .next s') : ∃ l', s'.Holds l' := by
  cases a with
  | new address afterOffset time =>
      cases queueStep_cases hstep with
      | new hfresh hnew => exact ⟨l, h.new hfresh _⟩
  | link new =>
      have hpending : new ∈ s.pending := by
        cases queueStep_cases hstep with
        | linkFirst hpending _ => exact hpending
        | linkLast hpending _ _ => exact hpending
      obtain ⟨element, s'', _, hlink, hlinked, _⟩ := h.link hpending
      cases hlink.symm.trans hstep
      exact ⟨_, hlinked⟩
  | pop msgID env =>
      cases l with
      | nil =>
          cases (h.popNothing p.glib p.sender msgID env).symm.trans hstep
          exact ⟨[], h⟩
      | cons first l =>
          rcases h.pop p.glib p.sender msgID env with ⟨_, hpop⟩ | ⟨_, s'', _, hpop, hpopped, _⟩
          · cases hpop.symm.trans hstep
          · cases hpop.symm.trans hstep
            exact ⟨l, hpopped⟩

/-- In every reachable state the live elements are those of a chain and the pending ones. -/
theorem holds_reachable {p : Params} {s : QueueState Address}
    (h : (queueCells p).Reachable s) : ∃ l, s.Holds l := by
  apply h.invariant (P := fun s => ∃ l, s.Holds l) ⟨[], holds_start⟩
  intro s a s' hs hstep
  obtain ⟨l, hl⟩ := hs
  exact hl.step hstep

/-! ## Calls on cells and on a list -/

/-- What of the cells can be observed. -/
def QueueState.view (s : QueueState Address) : ListState :=
  ⟨s.elements, s.sent⟩

/-- `calloc` returns an address to the call that is not live. -/
def Call.Fresh (s : QueueState Address) : Call Address → Prop
  | .push address _ _ => address ∉ s.heap
  | .pop _ _ => True

/-- `calloc` returns an address that is not live to every call of a sequence. -/
def FreshAddresses (p : Params) (s : QueueState Address) (calls : List (Call Address)) : Prop :=
  ∀ done call rest, calls = done ++ call :: rest →
    ∀ t, (queueCells p).run s (done.flatMap Call.actions) = .next t → call.Fresh t

/-- The first call of a sequence has an address that is not live, and so have the others behind
it. -/
theorem FreshAddresses.cons {p : Params} {s : QueueState Address} {call : Call Address}
    {calls : List (Call Address)} (h : FreshAddresses p s (call :: calls)) :
    call.Fresh s ∧
      ∀ t, (queueCells p).run s call.actions = .next t → FreshAddresses p t calls := by
  constructor
  · exact h [] call calls rfl s rfl
  · intro t ht done next rest hcalls u hu
    refine h (call :: done) next rest (by rw [hcalls, List.cons_append]) u ?_
    rw [List.flatMap_cons, Machine.run_append, ht]
    exact hu

/-- A call whose address is live blocks. -/
theorem run_blocked_of_not_fresh {p : Params} {s : QueueState Address} {call : Call Address}
    (h : ¬ call.Fresh s) : (queueCells p).run s call.actions = .blocked := by
  cases call with
  | push address afterOffset time =>
      have hlive : address ∈ s.heap := not_not.mp h
      simp only [Call.actions, Machine.run, queueCells, newElement, if_pos hlive]
  | pop msgID env => exact absurd trivial h

/-- A sequence of calls that does not block has addresses that are not live. -/
theorem freshAddresses_of_run {p : Params} {s : QueueState Address} {calls : List (Call Address)}
    (h : (queueCells p).run s (calls.flatMap Call.actions) ≠ .blocked) :
    FreshAddresses p s calls := by
  intro done call rest hcalls t ht
  by_contra hlive
  apply h
  rw [hcalls, List.flatMap_append, List.flatMap_cons, Machine.run_append, ht]
  simp only [Outcome.bind, Machine.run_append, run_blocked_of_not_fresh hlive]

/-- A call does the same to the cells and to the list, and leaves no element of its own
pending. -/
theorem QueueState.Holds.call {p : Params} {s : QueueState Address}
    {l : List (Address × SDElementQueueElement)} (h : s.Holds l) (call : Call Address)
    (hfresh : call.Fresh s) :
    ((queueCells p).run s call.actions = .undefined ∧
      (queueList p).step s.view call.action = .undefined) ∨
    ∃ s' l', (queueCells p).run s call.actions = .next s' ∧ s'.Holds l' ∧
      s'.pending = s.pending ∧ (queueList p).step s.view call.action = .next s'.view := by
  cases call with
  | push address afterOffset time =>
      have hlive : address ∉ s.heap := hfresh
      cases hnew : newSDElement p.header afterOffset time with
      | none =>
          left
          simp only [Call.actions, Call.action, Machine.run, queueCells, queueList, newElement,
            if_neg hlive, hnew, pushSDElementQueue, Option.bind_eq_bind, Option.bind_none,
            and_self]
      | some new =>
          right
          have hallocated := h.new hlive new
          obtain ⟨element, s', hcell, hlink, hlinked, hpending, hsent⟩ :=
            hallocated.link (List.mem_cons_self ..)
          rw [List.erase_cons_head] at hpending
          rw [Finmap.lookup_insert, Option.some.injEq, Cell.mk.injEq] at hcell
          obtain ⟨rfl, _⟩ := hcell
          refine ⟨s', _, ?_, hlinked, hpending, ?_⟩
          · simp only [Call.actions, Machine.run, queueCells, newElement, if_neg hlive, hnew,
              hlink]
          · simp only [Call.action, queueList, QueueState.view, pushSDElementQueue, hnew,
              Option.bind_eq_bind, Option.bind_some, h.elements, hlinked.elements, hsent,
              List.map_append, List.map_cons, List.map_nil]
  | pop msgID env =>
      cases l with
      | nil =>
          right
          have hpop := h.popNothing p.glib p.sender msgID env
          refine ⟨s, [], ?_, h, rfl, ?_⟩
          · simp only [Call.actions, Machine.run, queueCells, hpop]
          · simp only [Call.action, queueList, QueueState.view, h.elements, List.map_nil,
              popSDElementQueue, PopResult.handed, List.append_nil]
      | cons first l =>
          obtain ⟨address, element⟩ := first
          rcases h.pop p.glib p.sender msgID env with
            ⟨hsend, hpop⟩ | ⟨result, s', hsend, hpop, hpopped, _, hpending, hsent⟩
          · left
            simp only [Call.actions, Call.action, Machine.run, queueCells, hpop, queueList,
              QueueState.view, h.elements, List.map_cons, popSDElementQueue, hsend,
              Option.bind_eq_bind, Option.bind_none, and_self]
          · right
            refine ⟨s', l, ?_, hpopped, hpending, ?_⟩
            · simp only [Call.actions, Machine.run, queueCells, hpop]
            · simp only [Call.action, queueList, QueueState.view, h.elements, hpopped.elements,
                List.map_cons, popSDElementQueue, hsend, Option.bind_eq_bind, Option.bind_some,
                PopResult.handed, hsent]

/-- A sequence of calls does not block, does the same to the cells and to the list, and leaves no
element of its own pending, as long as `calloc` returns addresses that are not live. -/
theorem run_calls {p : Params} {s : QueueState Address}
    {l : List (Address × SDElementQueueElement)} (h : s.Holds l) (calls : List (Call Address))
    (hfresh : FreshAddresses p s calls) :
    (queueCells p).run s (calls.flatMap Call.actions) ≠ .blocked ∧
      ((queueCells p).run s (calls.flatMap Call.actions)).map QueueState.view =
        (queueList p).run s.view (calls.map Call.action) ∧
      ∀ t, (queueCells p).run s (calls.flatMap Call.actions) = .next t →
        t.pending = s.pending := by
  induction calls generalizing s l with
  | nil =>
      refine ⟨by simp [Machine.run], rfl, ?_⟩
      intro t ht
      cases ht
      rfl
  | cons call calls ih =>
      rw [List.flatMap_cons, Machine.run_append, List.map_cons, Machine.run]
      rcases h.call call hfresh.cons.1 with
        ⟨hcells, hlist⟩ | ⟨s', l', hcells, hl', hpending, hlist⟩
      · rw [hcells, hlist]
        refine ⟨by simp [Outcome.bind], rfl, ?_⟩
        intro t ht
        cases ht
      · rw [hcells, hlist, ← hpending]
        exact ih hl' (hfresh.cons.2 s' hcells)

/-! ## Refinement -/

/-- The chain from `first` is finite and ends in NULL, has no cycle, and reaches the live elements
but for those that are not linked yet; no link dangles, and the search for the last element
ends. -/
structure WellLinked (s : QueueState Address)
    (l : List (Address × SDElementQueueElement)) : Prop where
  chain : Chain s.heap s.first l
  acyclic : (l.map Prod.fst).Nodup
  live : ∀ a, a ∈ s.heap ↔ a ∈ l.map Prod.fst ∨ a ∈ s.pending
  notDangling : ∀ a element b, s.heap.lookup a = some ⟨element, some b⟩ → b ∈ s.heap
  searchEnds : ∀ a, s.first = some a → ∃ lastElement, TailSearch s.heap a lastElement
  elements : s.elements = l.map Prod.snd

/-- The invariant says all of this. -/
theorem QueueState.Holds.wellLinked {s : QueueState Address}
    {l : List (Address × SDElementQueueElement)} (h : s.Holds l) : WellLinked s l where
  chain := h.chain
  acyclic := h.chain.nodup
  live := h.live
  notDangling a element b hcell := h.chain.live (h.next_mem hcell)
  searchEnds a ha := by
    obtain ⟨_, lastElement, _, _, _, hsearch⟩ := h.chain.tailSearch ha
    exact ⟨lastElement, hsearch⟩
  elements := h.elements

/-- The critical section of `pushSDElementQueue` appends its element to the chain and leaves the
others where and what they are. -/
def LinkAppends (p : Params) (s : QueueState Address)
    (l : List (Address × SDElementQueueElement)) : Prop :=
  ∀ new ∈ s.pending, ∃ element s', s.heap.lookup new = some ⟨element, none⟩ ∧
    (queueCells p).step s (.link new) = .next s' ∧ WellLinked s' (l ++ [(new, element)]) ∧
    s'.pending = s.pending.erase new ∧ s'.sent = s.sent

/-- The critical section of `popSDElementQueue` leaves an empty queue alone; otherwise it hands
the first element to `sendMessage` and frees it, and leaves the others where and what they are. -/
def PopRemovesFirst (p : Params) (s : QueueState Address) :
    List (Address × SDElementQueueElement) → Prop
  | [] => ∀ msgID env, (queueCells p).step s (.pop msgID env) = .next s
  | (address, element) :: l => ∀ msgID env,
      (sendMessage p.glib p.sender element msgID env = none ∧
        (queueCells p).step s (.pop msgID env) = .undefined) ∨
      ∃ result s', sendMessage p.glib p.sender element msgID env = some result ∧
        (queueCells p).step s (.pop msgID env) = .next s' ∧ WellLinked s' l ∧
        s'.heap = s.heap.erase address ∧ s'.pending = s.pending ∧
        s'.sent = s.sent ++ [⟨element, msgID, env, result⟩]

/-- The linked queue refines a list.  In every state that calls of both functions reach,
interleaved between their critical sections, the queue is well linked, the one critical section
appends at its end and the other removes its head.  Every sequence of calls, in which `calloc`
returns no address that is live, goes through; it has the outcome that it has on a list, with the
same elements in the queue and in the hands of `sendMessage`, and behind it the live elements are
those that `first` leads to. -/
theorem queue_cells_refine_list (p : Params) :
    (∀ s : QueueState Address, (queueCells p).Reachable s →
      ∃ l, WellLinked s l ∧ LinkAppends p s l ∧ PopRemovesFirst p s l) ∧
    ∀ calls : List (Call Address), FreshAddresses p QueueState.start calls →
      (queueCells p).run QueueState.start (calls.flatMap Call.actions) ≠ .blocked ∧
        ((queueCells p).run QueueState.start (calls.flatMap Call.actions)).map QueueState.view =
            (queueList p).run (queueList p).initial (calls.map Call.action) ∧
          ∀ s, (queueCells p).run QueueState.start (calls.flatMap Call.actions) = .next s →
            ∃ l, Chain s.heap s.first l ∧ ∀ a, a ∈ s.heap ↔ a ∈ l.map Prod.fst := by
  constructor
  · intro s hs
    obtain ⟨l, hl⟩ := holds_reachable hs
    refine ⟨l, hl.wellLinked, ?_, ?_⟩
    · intro new hpending
      obtain ⟨element, s', hcell, hlink, hlinked, hrest⟩ := hl.link hpending
      exact ⟨element, s', hcell, hlink, hlinked.wellLinked, hrest⟩
    · cases l with
      | nil =>
          intro msgID env
          exact hl.popNothing p.glib p.sender msgID env
      | cons first l =>
          intro msgID env
          apply (hl.pop p.glib p.sender msgID env).imp_right
          intro hpop
          obtain ⟨result, s', hsend, hstep, hpopped, hrest⟩ := hpop
          exact ⟨result, s', hsend, hstep, hpopped.wellLinked, hrest⟩
  · intro calls hfresh
    obtain ⟨hrunning, hview, hpending⟩ := run_calls holds_start calls hfresh
    refine ⟨hrunning, hview, ?_⟩
    intro s hrun
    obtain ⟨l, hl⟩ := holds_reachable (Machine.reachableFrom_of_run hrun)
    refine ⟨l, hl.chain, ?_⟩
    intro a
    have hnone : s.pending = [] := hpending s hrun
    rw [hl.live a, hnone]
    simp

/-- Two elements are pushed and one is popped; its address is used again. -/
def exampleQueueCalls : List (Call Nat) :=
  [.push 10 (ascii "value=1") 5, .push 20 (ascii "value=2") 6, .pop 1 (exampleEnv 100),
    .push 10 (ascii "value=3") 7]

/-- Behind these calls the queue holds what it holds on a list: the last two elements. -/
theorem queue_cells_refine_list_calls :
    ((queueCells exampleParams).run QueueState.start (exampleQueueCalls.flatMap Call.actions)).map
        QueueState.view =
      (queueList exampleParams).run (queueList exampleParams).initial
        (exampleQueueCalls.map Call.action) ∧
    (queueCells exampleParams).EndsIn QueueState.start (exampleQueueCalls.flatMap Call.actions)
      (fun s => s.first = some 20 ∧ s.elements.map SDElementQueueElement.time = [6, 7] ∧
        s.sent.map (fun handed => handed.element.time) = [5]) := by
  have hend : (queueCells exampleParams).EndsIn QueueState.start
      (exampleQueueCalls.flatMap Call.actions)
      (fun s => s.first = some 20 ∧ s.elements.map SDElementQueueElement.time = [6, 7] ∧
        s.sent.map (fun handed => handed.element.time) = [5]) := by
    decide
  have hrunning : (queueCells exampleParams).run QueueState.start
      (exampleQueueCalls.flatMap Call.actions) ≠ .blocked := by
    intro hblocked
    rw [Machine.EndsIn, hblocked] at hend
    exact hend
  have hrefines := (queue_cells_refine_list exampleParams).2 exampleQueueCalls
    (freshAddresses_of_run hrunning)
  exact ⟨hrefines.2.1, hend⟩

end AlertProbe
