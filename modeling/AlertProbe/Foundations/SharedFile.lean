import AlertProbe.Foundations.TransitionSystem

/-!
# Files that several writers append to

Every writer has a list of blocks, each to be appended to one of the files.  What it
hands over at once is whole, wherever it gets in the file.  Between any two of these
steps other writers may go on.  A stream with a buffer hands over its text in blocks
of the size of the buffer.

Main results:

- Theorem `exists_cons_blocks`: the first block of a text, and what is left of it.
- Theorem `Written.snoc`: a block behind what was written.
- Theorem `exists_written`: no block is divided, lost or written twice, in whatever
  order the writers go on.
- Theorem `exists_alone`: what there is when one writer has gone on alone.
-/

namespace Foundations

universe u v w

variable {ι : Type u} {κ : Type v} {β : Type w}

/-- The files, and what the writers have not appended yet. -/
structure SharedFiles (ι : Type u) (κ : Type v) (β : Type w) where
  content : κ → List β
  todo : ι → List (κ × List β)

namespace SharedFiles

/-! ## Blocks of a text -/

/-- The blocks that a stream hands over, when its buffer holds some of its text and is handed over
when it is full and at the end. -/
def blocksFrom (size : Nat) (held : List β) : List β → List (List β)
  | [] => if held.isEmpty then [] else [held]
  | b :: rest =>
      if held.length < size then blocksFrom size (held ++ [b]) rest
      else held :: blocksFrom size [b] rest

/-- The blocks of a text, when blocks are limited. -/
def blocks : Option Nat → List β → List (List β)
  | none, text => [text]
  | some size, text => blocksFrom size [] text

/-- The blocks make up the text. -/
theorem flatten_blocksFrom (size : Nat) (held text : List β) :
    (blocksFrom size held text).flatten = held ++ text := by
  induction text generalizing held with
  | nil =>
      cases held with
      | nil => rfl
      | cons b held => simp [blocksFrom]
  | cons b rest ih =>
      rw [blocksFrom]
      split
      · rw [ih, List.append_assoc, List.singleton_append]
      · rw [List.flatten_cons, ih, List.singleton_append]

/-- The first block is what fills the buffer. -/
theorem exists_cons_blocksFrom {size : Nat} {held text : List β}
    (hheld : held.length ≤ size) (hne : held ++ text ≠ []) :
    ∃ later, blocksFrom size held text = (held ++ text).take size :: later := by
  induction text generalizing held with
  | nil =>
      rw [List.append_nil] at hne ⊢
      refine ⟨[], ?_⟩
      rw [blocksFrom, if_neg (by simpa using hne), List.take_of_length_le hheld]
  | cons b rest ih =>
      rw [blocksFrom]
      by_cases hroom : held.length < size
      · have hroom' : (held ++ [b]).length ≤ size := by simpa using hroom
        have hmore := ih hroom' (by simp)
        rw [List.append_assoc, List.singleton_append] at hmore
        rw [if_pos hroom]
        exact hmore
      · have hfull : held.length = size := Nat.le_antisymm hheld (Nat.le_of_not_lt hroom)
        rw [if_neg hroom, List.take_left' hfull]
        exact ⟨_, rfl⟩

/-- The first block of a text, and what is left of it. -/
theorem exists_cons_blocks (size : Nat) {text : List β} (hne : text ≠ []) :
    ∃ later, blocks (some size) text = text.take size :: later ∧
      later.flatten = text.drop size := by
  have hnone : ([] : List β).length ≤ size := Nat.zero_le size
  obtain ⟨later, hlater⟩ := exists_cons_blocksFrom hnone hne
  refine ⟨later, hlater, ?_⟩
  have hall := flatten_blocksFrom size [] text
  rw [hlater, List.flatten_cons, List.nil_append] at hall
  exact List.append_cancel_left (hall.trans (List.take_append_drop size text).symm)

/-! ## Writers -/

variable [DecidableEq ι] [DecidableEq κ]

/-- The writer `i` hands over a block. -/
def append (s : SharedFiles ι κ β) (i : ι) : Outcome (SharedFiles ι κ β) :=
  match s.todo i with
  | [] => .blocked
  | (k, block) :: rest =>
      .next
        { content := Function.update s.content k (s.content k ++ block)
          todo := Function.update s.todo i rest }

/-- Writers with the given blocks, on empty files. -/
def writers (program : ι → List (κ × List β)) : Machine (SharedFiles ι κ β) ι where
  initial := ⟨fun _ => [], program⟩
  step := append

/-- The blocks that were written, each with its writer and its file, in order. -/
structure Written (program : ι → List (κ × List β)) (s : SharedFiles ι κ β)
    (history : List (ι × κ × List β)) : Prop where
  content : ∀ k, s.content k = (history.filter (·.2.1 = k)).flatMap (·.2.2)
  todo : ∀ i, (history.filter (·.1 = i)).map (·.2) ++ s.todo i = program i

/-- A block behind what was written. -/
theorem Written.snoc {program : ι → List (κ × List β)} {s : SharedFiles ι κ β}
    {history : List (ι × κ × List β)} (h : Written program s history) {i : ι} {k : κ}
    {block : List β} {rest : List (κ × List β)} (hi : s.todo i = (k, block) :: rest) :
    Written program
      ⟨Function.update s.content k (s.content k ++ block), Function.update s.todo i rest⟩
      (history ++ [(i, k, block)]) := by
  constructor
  · intro k'
    rw [List.filter_append, List.flatMap_append, ← h.content k']
    by_cases hk : k = k'
    · subst hk
      simp
    · simp [Function.update_of_ne (Ne.symm hk), hk]
  · intro i'
    rw [List.filter_append, List.map_append]
    by_cases hwriter : i = i'
    · subst hwriter
      have htodo := h.todo i
      rw [hi] at htodo
      simpa using htodo
    · have htodo := h.todo i'
      simpa [Function.update_of_ne (Ne.symm hwriter), hwriter] using htodo

/-- In whatever order the writers go on, the files hold whole blocks, and every writer has written
its blocks in order up to those that it has left. -/
theorem exists_written {program : ι → List (κ × List β)} {s : SharedFiles ι κ β}
    (h : (writers program).Reachable s) : ∃ history, Written program s history := by
  refine h.invariant (P := fun s => ∃ history, Written program s history) ?_ ?_
  · exact ⟨[], fun _ => rfl, fun _ => rfl⟩
  · rintro s i s' ⟨history, hwritten⟩ hstep
    change append s i = .next s' at hstep
    unfold append at hstep
    split at hstep
    · cases hstep
    · rename_i k block rest hi
      cases hstep
      exact ⟨_, hwritten.snoc hi⟩

/-- A writer that goes on alone comes to the end of every block that it has. -/
theorem exists_alone (program : ι → List (κ × List β)) (i : ι) (n : Nat) :
    ∃ s, (writers program).Reachable s ∧ s.todo i = (program i).drop n ∧
      ∀ k, s.content k = (((program i).take n).filter (·.1 = k)).flatMap (·.2) := by
  induction n with
  | zero => exact ⟨_, Relation.ReflTransGen.refl, rfl, fun _ => rfl⟩
  | succ n ih =>
      obtain ⟨s, hs, htodo, hcontent⟩ := ih
      cases hdrop : (program i).drop n with
      | nil =>
          have hend : (program i).length ≤ n := List.drop_eq_nil_iff.mp hdrop
          refine ⟨s, hs, ?_, ?_⟩
          · rw [htodo, hdrop, List.drop_eq_nil_of_le (Nat.le_succ_of_le hend)]
          · intro k
            rw [hcontent k, List.take_of_length_le hend,
              List.take_of_length_le (Nat.le_succ_of_le hend)]
      | cons written rest =>
          obtain ⟨k, block⟩ := written
          rw [hdrop] at htodo
          have hstep : append s i = .next
              ⟨Function.update s.content k (s.content k ++ block),
                Function.update s.todo i rest⟩ := by
            unfold append
            rw [htodo]
          refine ⟨_, Relation.ReflTransGen.tail hs ⟨i, hstep⟩, ?_, ?_⟩
          · refine (Function.update_self ..).trans ?_
            rw [← List.tail_drop, hdrop, List.tail_cons]
          · intro k'
            have hget : (program i)[n]? = some (k, block) := by
              rw [← List.head?_drop, hdrop, List.head?_cons]
            rw [List.take_add_one, hget, List.filter_append, List.flatMap_append, ← hcontent k']
            by_cases hk : k = k'
            · subst hk
              simp
            · simp [Function.update_of_ne (Ne.symm hk), hk]

end SharedFiles

end Foundations
