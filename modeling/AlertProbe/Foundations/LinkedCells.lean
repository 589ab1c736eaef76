import Mathlib

/-!
# Linked cells

A heap is a finite map from addresses to cells, each with a value and a link to the
next cell.  A chain is what a pointer leads to when the links are followed to NULL.
Chains are derived step by step, so a chain is finite; a link back would make two
chains of different length start at one address, so a chain has no cycle.

Main results:

- Theorem `Chain.nodup`: a chain visits no address twice.
- Theorem `findLast_eq_some`: the loop to the last cell ends within as many turns as
  there are cells, if it ends at all.
- Theorems `Represents.alloc`, `Represents.linkFirst`, `Represents.linkLast` and
  `Represents.removeFirst`: the operations of a queue on its chain.
-/

namespace Foundations

universe u v

/-- A value and a link, `none` for NULL. -/
structure Cell (α : Type u) (β : Type v) where
  value : β
  next : Option α
deriving DecidableEq, Repr

/-- A heap of cells. -/
abbrev Cells (α : Type u) (β : Type v) :=
  Finmap fun _ : α => Cell α β

variable {α : Type u} {β : Type v} [DecidableEq α]

/-! ## Chains -/

/-- Following the links from a pointer to NULL visits the listed addresses, with the listed
values. -/
inductive Chain (heap : Cells α β) : Option α → List (α × β) → Prop where
  | nil : Chain heap none []
  | cons {a : α} {v : β} {next : Option α} {rest : List (α × β)}
      (hcell : heap.lookup a = some ⟨v, next⟩) (hrest : Chain heap next rest) :
      Chain heap (some a) ((a, v) :: rest)

namespace Chain

variable {heap heap' : Cells α β} {first : Option α} {l l' : List (α × β)}

/-- Only NULL has the empty chain. -/
theorem first_eq_none (h : Chain heap first []) : first = none := by
  cases h
  rfl

/-- A pointer leads to the first address of its chain. -/
theorem first_eq_some {a : α} {v : β} (h : Chain heap first ((a, v) :: l)) : first = some a := by
  cases h
  rfl

/-- A pointer has one chain at most. -/
theorem unique (h : Chain heap first l) (h' : Chain heap first l') : l = l' := by
  induction h generalizing l' with
  | nil =>
      cases h'
      rfl
  | cons hcell hrest ih =>
      cases h' with
      | cons hcell' hrest' =>
          rw [hcell, Option.some.injEq, Cell.mk.injEq] at hcell'
          obtain ⟨rfl, rfl⟩ := hcell'
          rw [ih hrest']

/-- A chain goes on from every address on it. -/
theorem from_mem (h : Chain heap first l) {a : α} (ha : a ∈ l.map Prod.fst) :
    ∃ rest, rest <:+ l ∧ Chain heap (some a) rest := by
  induction h with
  | nil => cases ha
  | @cons b v next rest hcell hrest ih =>
      rw [List.map_cons, List.mem_cons] at ha
      rcases ha with rfl | ha
      · exact ⟨_, List.suffix_rfl, .cons hcell hrest⟩
      · obtain ⟨tail, hsuffix, htail⟩ := ih ha
        exact ⟨tail, hsuffix.trans (List.suffix_cons _ _), htail⟩

/-- A chain visits no address twice. -/
theorem nodup (h : Chain heap first l) : (l.map Prod.fst).Nodup := by
  induction h with
  | nil => exact List.nodup_nil
  | @cons a v next rest hcell hrest ih =>
      rw [List.map_cons, List.nodup_cons]
      refine ⟨?_, ih⟩
      intro hback
      obtain ⟨tail, hsuffix, htail⟩ := hrest.from_mem hback
      have hsame : tail = (a, v) :: rest := htail.unique (.cons hcell hrest)
      have hshort := hsuffix.length_le
      rw [hsame, List.length_cons] at hshort
      omega

/-- The addresses of a chain are live. -/
theorem live (h : Chain heap first l) {a : α} (ha : a ∈ l.map Prod.fst) : a ∈ heap := by
  obtain ⟨rest, _, hrest⟩ := h.from_mem ha
  cases hrest with
  | cons hcell _ => exact Finmap.mem_of_lookup_eq_some hcell

/-- The links of a chain lead to addresses on it. -/
theorem next_mem (h : Chain heap first l) {a b : α} {v : β} (ha : a ∈ l.map Prod.fst)
    (hcell : heap.lookup a = some ⟨v, some b⟩) : b ∈ l.map Prod.fst := by
  obtain ⟨rest, hsuffix, hrest⟩ := h.from_mem ha
  cases hrest with
  | cons hcell' htail =>
      rw [hcell, Option.some.injEq, Cell.mk.injEq] at hcell'
      rw [← hcell'.2] at htail
      cases htail with
      | cons hb htail' =>
          apply (hsuffix.map Prod.fst).subset
          exact List.mem_cons_of_mem _ (List.mem_cons_self ..)

/-- A chain reads the cells at its addresses only. -/
theorem frame (h : Chain heap first l)
    (hsame : ∀ a ∈ l.map Prod.fst, heap'.lookup a = heap.lookup a) : Chain heap' first l := by
  induction h with
  | nil => exact .nil
  | cons hcell hrest ih =>
      rw [List.map_cons, List.forall_mem_cons] at hsame
      exact .cons (hsame.1.trans hcell) (ih hsame.2)

/-- A chain is no longer than the heap. -/
theorem length_le (h : Chain heap first l) : l.length ≤ heap.keys.card := by
  have hsubset : (l.map Prod.fst).toFinset ⊆ heap.keys := by
    intro a ha
    rw [List.mem_toFinset] at ha
    exact Finmap.mem_keys.mpr (h.live ha)
  have hcard := Finset.card_le_card hsubset
  rwa [List.toFinset_card_of_nodup h.nodup, List.length_map] at hcard

end Chain

/-- The chain of a pointer, followed for a number of cells. -/
def contents (heap : Cells α β) : Nat → Option α → List (α × β)
  | 0, _ => []
  | _ + 1, none => []
  | fuel + 1, some a =>
      match heap.lookup a with
      | none => []
      | some cell => (a, cell.value) :: contents heap fuel cell.next

/-- A chain that is not too long is followed to its end. -/
theorem Chain.contents_eq {heap : Cells α β} {first : Option α} {l : List (α × β)}
    (h : Chain heap first l) {fuel : Nat} (hfuel : l.length ≤ fuel) :
    contents heap fuel first = l := by
  induction h generalizing fuel with
  | nil => cases fuel <;> rfl
  | cons hcell hrest ih =>
      cases fuel with
      | zero => simp at hfuel
      | succ fuel =>
          rw [List.length_cons] at hfuel
          rw [contents, hcell]
          simp only [ih (Nat.le_of_succ_le_succ hfuel)]

/-! ## The search for the last cell -/

/-- The loop `while (last->next != NULL) last = last->next;` ends. -/
inductive TailSearch (heap : Cells α β) : α → α → Prop where
  | stop {a : α} {v : β} (hcell : heap.lookup a = some ⟨v, none⟩) : TailSearch heap a a
  | move {a b last : α} {v : β} (hcell : heap.lookup a = some ⟨v, some b⟩)
      (hrest : TailSearch heap b last) : TailSearch heap a last

/-- The loop for a number of turns; `none` when it has not ended or has left the heap. -/
def tailSearch (heap : Cells α β) : Nat → α → Option α
  | 0, _ => none
  | fuel + 1, a =>
      match heap.lookup a with
      | none => none
      | some ⟨_, none⟩ => some a
      | some ⟨_, some b⟩ => tailSearch heap fuel b

/-- The loop for as many turns as there are cells. -/
def findLast (heap : Cells α β) (a : α) : Option α :=
  tailSearch heap heap.keys.card a

/-- From the head of a chain the loop ends at the last cell of the chain. -/
theorem Chain.tailSearch {heap : Cells α β} {first : Option α} {l : List (α × β)}
    (h : Chain heap first l) {a : α} (ha : first = some a) :
    ∃ front last v, l = front ++ [(last, v)] ∧ heap.lookup last = some ⟨v, none⟩ ∧
      TailSearch heap a last := by
  induction h generalizing a with
  | nil => cases ha
  | @cons b v next rest hcell hrest ih =>
      cases ha
      cases next with
      | none =>
          cases hrest
          exact ⟨[], b, v, rfl, hcell, .stop hcell⟩
      | some c =>
          obtain ⟨front, last, w, rfl, hlast, hsearch⟩ := ih rfl
          exact ⟨(b, v) :: front, last, w, rfl, hlast, .move hcell hsearch⟩

/-- A loop that ends has followed a chain. -/
theorem TailSearch.chain {heap : Cells α β} {a last : α} (h : TailSearch heap a last) :
    ∃ l, Chain heap (some a) l := by
  induction h with
  | stop hcell => exact ⟨_, .cons hcell .nil⟩
  | move hcell _ ih =>
      obtain ⟨l, hl⟩ := ih
      exact ⟨_, .cons hcell hl⟩

/-- A number of turns that is enough for the chain is enough for the loop. -/
theorem TailSearch.tailSearch_eq {heap : Cells α β} {a last : α} (h : TailSearch heap a last)
    {l : List (α × β)} (hl : Chain heap (some a) l) {fuel : Nat} (hfuel : l.length ≤ fuel) :
    tailSearch heap fuel a = some last := by
  induction h generalizing l fuel with
  | stop hcell =>
      cases hl with
      | cons hcell' hrest =>
          cases fuel with
          | zero => simp at hfuel
          | succ fuel => simp only [tailSearch, hcell]
  | move hcell _ ih =>
      cases hl with
      | cons hcell' hrest =>
          rw [hcell, Option.some.injEq, Cell.mk.injEq] at hcell'
          rw [← hcell'.2] at hrest
          cases fuel with
          | zero => simp at hfuel
          | succ fuel =>
              rw [List.length_cons] at hfuel
              simp only [tailSearch, hcell]
              exact ih hrest (Nat.le_of_succ_le_succ hfuel)

/-- A loop that has ended ends. -/
theorem tailSearch_sound {heap : Cells α β} {fuel : Nat} {a last : α}
    (h : tailSearch heap fuel a = some last) : TailSearch heap a last := by
  induction fuel generalizing a with
  | zero => cases h
  | succ fuel ih =>
      rw [tailSearch] at h
      split at h
      · cases h
      · rename_i hcell
        cases h
        exact .stop hcell
      · rename_i hcell
        exact .move hcell (ih h)

/-- The loop ends within as many turns as there are cells, if it ends at all. -/
theorem findLast_eq_some {heap : Cells α β} {a last : α} :
    findLast heap a = some last ↔ TailSearch heap a last := by
  constructor
  · exact tailSearch_sound
  · intro h
    obtain ⟨l, hl⟩ := h.chain
    exact h.tailSearch_eq hl hl.length_le

/-! ## Links -/

/-- `a->next = b` -/
def setNext (heap : Cells α β) (a b : α) : Cells α β :=
  match heap.lookup a with
  | none => heap
  | some cell => heap.insert a { cell with next := some b }

/-- The value stays and the link changes. -/
theorem lookup_setNext {heap : Cells α β} {a : α} {v : β} {next : Option α}
    (h : heap.lookup a = some ⟨v, next⟩) (b : α) :
    (setNext heap a b).lookup a = some ⟨v, some b⟩ := by
  simp only [setNext, h, Finmap.lookup_insert]

/-- The other cells stay. -/
theorem lookup_setNext_of_ne (heap : Cells α β) {a c : α} (b : α) (h : c ≠ a) :
    (setNext heap a b).lookup c = heap.lookup c := by
  unfold setNext
  split
  · rfl
  · exact Finmap.lookup_insert_of_ne _ h

/-- No cell comes or goes. -/
theorem mem_setNext (heap : Cells α β) (a b c : α) : c ∈ setNext heap a b ↔ c ∈ heap := by
  by_cases hc : c = a
  · subst hc
    unfold setNext
    split
    · rfl
    · rename_i cell hcell
      have hmem := Finmap.mem_of_lookup_eq_some hcell
      simp only [Finmap.mem_insert, hmem, or_true]
  · rw [← Finmap.lookup_isSome, ← Finmap.lookup_isSome, lookup_setNext_of_ne heap b hc]

/-- Linking a cell behind the last one makes the chain one longer. -/
theorem Chain.link {heap : Cells α β} {first : Option α} {front : List (α × β)} {last new : α}
    {v w : β} (h : Chain heap first (front ++ [(last, v)]))
    (hlast : heap.lookup last = some ⟨v, none⟩) (hnew : heap.lookup new = some ⟨w, none⟩)
    (hfresh : new ∉ (front ++ [(last, v)]).map Prod.fst) :
    Chain (setNext heap last new) first (front ++ [(last, v)] ++ [(new, w)]) := by
  have hne : new ≠ last := by
    rintro rfl
    apply hfresh
    simp
  have hnew' : (setNext heap last new).lookup new = some ⟨w, none⟩ :=
    (lookup_setNext_of_ne heap new hne).trans hnew
  induction front generalizing first with
  | nil =>
      cases h with
      | cons _ _ => exact .cons (lookup_setNext hlast new) (.cons hnew' .nil)
  | cons p front ih =>
      have hnodup := h.nodup
      cases h with
      | @cons a u _ _ hcell hrest =>
          have ha : a ≠ last := by
            rintro rfl
            simp at hnodup
          have hcell' := (lookup_setNext_of_ne heap new ha).trans hcell
          refine .cons hcell' (ih hrest ?_)
          intro hmem
          exact hfresh (List.mem_cons_of_mem _ hmem)

/-! ## Queues -/

/-- The live cells are those of a chain and, apart from them, pending ones whose link is NULL. -/
structure Represents (heap : Cells α β) (first : Option α) (pending : List α)
    (l : List (α × β)) : Prop where
  chain : Chain heap first l
  live : ∀ a, a ∈ heap ↔ a ∈ l.map Prod.fst ∨ a ∈ pending
  apart : ∀ a ∈ pending, a ∉ l.map Prod.fst
  nodup : pending.Nodup
  unlinked : ∀ a ∈ pending, ∃ v, heap.lookup a = some ⟨v, none⟩

namespace Represents

variable {heap : Cells α β} {first : Option α} {pending : List α} {l : List (α × β)} {a : α}

/-- Without cells there is only NULL. -/
theorem empty : Represents (∅ : Cells α β) none [] [] where
  chain := .nil
  live a := by simp [Finmap.notMem_empty]
  apart a ha := by cases ha
  nodup := List.nodup_nil
  unlinked a ha := by cases ha

/-- A link leads to a live cell, on the chain. -/
theorem next_mem (h : Represents heap first pending l) {b : α} {v : β}
    (hcell : heap.lookup a = some ⟨v, some b⟩) : b ∈ l.map Prod.fst := by
  rcases (h.live a).mp (Finmap.mem_of_lookup_eq_some hcell) with hchain | hpending
  · exact h.chain.next_mem hchain hcell
  · obtain ⟨w, hcell'⟩ := h.unlinked a hpending
    rw [hcell] at hcell'
    cases hcell'

/-- Allocate a cell. -/
theorem alloc (h : Represents heap first pending l) (hfresh : a ∉ heap) (v : β) :
    Represents (heap.insert a ⟨v, none⟩) first (a :: pending) l := by
  have hother : ∀ b ∈ heap, b ≠ a := by
    rintro b hb rfl
    exact hfresh hb
  have hkeep : ∀ b ∈ heap, (heap.insert a ⟨v, none⟩).lookup b = heap.lookup b := by
    intro b hb
    exact Finmap.lookup_insert_of_ne _ (hother b hb)
  refine ⟨?_, ?_, ?_, ?_, ?_⟩
  · apply h.chain.frame
    intro b hb
    exact hkeep b (h.chain.live hb)
  · intro b
    rw [Finmap.mem_insert, h.live b, List.mem_cons]
    exact or_left_comm
  · intro b hb
    rcases List.mem_cons.mp hb with rfl | hb
    · intro hchain
      exact hfresh (h.chain.live hchain)
    · exact h.apart b hb
  · apply List.nodup_cons.mpr
    refine ⟨?_, h.nodup⟩
    intro ha
    exact hfresh ((h.live a).mpr (Or.inr ha))
  · intro b hb
    rcases List.mem_cons.mp hb with rfl | hb
    · exact ⟨v, Finmap.lookup_insert _⟩
    · obtain ⟨w, hcell⟩ := h.unlinked b hb
      exact ⟨w, (hkeep b ((h.live b).mpr (Or.inr hb))).trans hcell⟩

/-- A pending cell joins a chain that it extends at its end. -/
theorem join (h : Represents heap first pending l) (ha : a ∈ pending) {heap' : Cells α β}
    {first' : Option α} {v : β} (hchain : Chain heap' first' (l ++ [(a, v)]))
    (hmem : ∀ b, b ∈ heap' ↔ b ∈ heap)
    (hkeep : ∀ b ∈ pending, heap'.lookup b = heap.lookup b) :
    Represents heap' first' (pending.erase a) (l ++ [(a, v)]) := by
  have haddresses : (l ++ [(a, v)]).map Prod.fst = l.map Prod.fst ++ [a] := by simp
  refine ⟨hchain, ?_, ?_, h.nodup.erase a, ?_⟩
  · intro b
    rw [hmem, h.live b, haddresses, List.mem_append, List.mem_singleton, h.nodup.mem_erase_iff]
    by_cases hb : b = a
    · subst hb
      simp [ha]
    · simp [hb]
  · intro b hb
    obtain ⟨hne, hpending⟩ := h.nodup.mem_erase_iff.mp hb
    rw [haddresses, List.mem_append, List.mem_singleton, not_or]
    exact ⟨h.apart b hpending, hne⟩
  · intro b hb
    have hpending := List.mem_of_mem_erase hb
    obtain ⟨w, hcell⟩ := h.unlinked b hpending
    exact ⟨w, (hkeep b hpending).trans hcell⟩

/-- Link a pending cell in front of NULL. -/
theorem linkFirst (h : Represents heap none pending l) (ha : a ∈ pending) :
    ∃ v, heap.lookup a = some ⟨v, none⟩ ∧
      Represents heap (some a) (pending.erase a) (l ++ [(a, v)]) := by
  obtain ⟨v, hcell⟩ := h.unlinked a ha
  have hl : l = [] := h.chain.unique .nil
  refine ⟨v, hcell, h.join ha ?_ (fun _ => Iff.rfl) (fun _ _ => rfl)⟩
  rw [hl]
  exact .cons hcell .nil

/-- Link a pending cell behind the last one, which the loop finds. -/
theorem linkLast {b : α} (h : Represents heap (some b) pending l) (ha : a ∈ pending) :
    ∃ last v, TailSearch heap b last ∧ last ∈ l.map Prod.fst ∧
      heap.lookup a = some ⟨v, none⟩ ∧
      Represents (setNext heap last a) (some b) (pending.erase a) (l ++ [(a, v)]) := by
  obtain ⟨v, hcell⟩ := h.unlinked a ha
  obtain ⟨front, last, w, rfl, hlast, hsearch⟩ := h.chain.tailSearch rfl
  have hmem : last ∈ (front ++ [(last, w)]).map Prod.fst := by simp
  refine ⟨last, v, hsearch, hmem, hcell, h.join ha ?_ ?_ ?_⟩
  · exact h.chain.link hlast hcell (h.apart a ha)
  · intro c
    exact mem_setNext heap last a c
  · intro c hc
    apply lookup_setNext_of_ne
    rintro rfl
    exact h.apart c hc hmem

/-- Free the first cell. -/
theorem removeFirst {v : β} (h : Represents heap (some a) pending ((a, v) :: l)) :
    ∃ next, heap.lookup a = some ⟨v, next⟩ ∧ Represents (heap.erase a) next pending l := by
  have hnodup := h.chain.nodup
  rw [List.map_cons, List.nodup_cons] at hnodup
  cases hchain : h.chain with
  | @cons _ _ next _ hcell hrest =>
      have hkeep : ∀ b, b ≠ a → (heap.erase a).lookup b = heap.lookup b := by
        intro b hb
        exact Finmap.lookup_erase_ne hb
      have hpending : ∀ b ∈ pending, b ≠ a := by
        rintro b hb rfl
        exact h.apart b hb (List.mem_cons_self ..)
      refine ⟨next, hcell, ?_, ?_, ?_, h.nodup, ?_⟩
      · apply hrest.frame
        intro b hb
        apply hkeep
        rintro rfl
        exact hnodup.1 hb
      · intro b
        rw [Finmap.mem_erase, h.live b, List.map_cons, List.mem_cons]
        by_cases hb : b = a
        · subst hb
          simp only [ne_eq, not_true_eq_false, false_and, false_iff, not_or]
          exact ⟨hnodup.1, fun hmem => hpending b hmem rfl⟩
        · simp [hb]
      · intro b hb hmem
        exact h.apart b hb (List.mem_cons_of_mem _ hmem)
      · intro b hb
        obtain ⟨w, hlookup⟩ := h.unlinked b hb
        exact ⟨w, (hkeep b (hpending b hb)).trans hlookup⟩

end Represents

end Foundations
