import AlertProbe.Model.Format

/-!
# The value loop and its 16-bit index

The value loop of `popCollectQueue` renders and frees the values at the indices
that an `unsigned short` takes, and `valuesLength` is an `int`.  As long as the
index reaches `valuesLength`, entry `i` still has its value when the loop comes to
`i`.  From 65536 values on the index starts again at an entry that has been freed.

Main results:

- Theorem `exists_iterate_prefix`: what the first iterations have visited,
  printed and freed.
- Theorem `value_loop_visits_once_iff`: the readings whose values are visited
  once, in order.
- Theorem `valueLoop_formatElement`: where the text fits its buffers, the loop
  ends with the text that `formatElement` prints.
- Theorem `wideReading_never_ends`: a reading whose loop goes on for ever.
-/

namespace AlertProbe

open Foundations

/-- The visits of the first `n` values, each at its index. -/
def CollectQueueElement.visitsBefore (e : CollectQueueElement) (n : Nat) : List Visit :=
  ((e.idsIDA.zip e.values).take n).mapIdx fun i p => ⟨i, p.1, some p.2⟩

/-- The loop ends after exactly `valuesLength` iterations, which have read the ids and values
at the indices 0, 1, … in order, each once and none of them freed before. -/
def VisitsOnce (glib : GLib) (nullText : Option CString) (e : CollectQueueElement) : Prop :=
  ∃ t, (valueLoop glib nullText e).TerminatesAfter e.valuesLength e.startValueLoop t ∧
    t.visits = e.visitsBefore e.valuesLength

section

variable {glib : GLib} {nullText : Option CString} {e : CollectQueueElement}

/-- One iteration moves the index on and frees the entry that it stood at. -/
theorem visitValue_eq_some {s t : ValueLoopState} (h : visitValue glib nullText e s = some t) :
    t.i = s.i + 1 ∧ t.values = s.values.set s.i.toNat none := by
  simp only [visitValue, Option.bind_eq_bind, Option.bind_eq_some_iff, Option.some.injEq] at h
  obtain ⟨_, _, _, _, _, _, rfl⟩ := h
  exact ⟨rfl, rfl⟩

/-- The loop counts to `valuesLength` with an index of 65536 values. -/
theorem valueLoop_counts :
    (valueLoop glib nullText e).Counts (fun s => s.i.toNat) 65536 e.valuesLength where
  guard_iff s := decide_eq_true_iff
  counter_lt s := s.i.toNat_lt
  body_counter s t h := by
    rw [(visitValue_eq_some h).1]
    exact UInt16.toNat_add s.i 1

/-- After `n` iterations that the index counts, the first `n` values are visited, printed and
freed, and the others are as they were. -/
structure AfterValues (glib : GLib) (e : CollectQueueElement) (n : Nat)
    (s : ValueLoopState) : Prop where
  i_eq : s.i.toNat = n
  values_get : ∀ k, n ≤ k → s.values[k]? = e.values[k]?.map some
  freed : ∀ k, k < n → s.values[k]? = some none
  visits_eq : s.visits = e.visitsBefore n
  afterOffset_eq :
    s.afterOffset = lotText e ++ renderValues glib ((e.idsIDA.zip e.values).take n)

/-- Before the first iteration nothing is visited. -/
theorem afterValues_zero : AfterValues glib e 0 e.startValueLoop where
  i_eq := rfl
  values_get k _ := by simp [CollectQueueElement.startValueLoop]
  freed k hk := absurd hk (Nat.not_lt_zero k)
  visits_eq := by simp [CollectQueueElement.startValueLoop, CollectQueueElement.visitsBefore]
  afterOffset_eq := by simp [CollectQueueElement.startValueLoop, renderValues]

/-- One iteration visits, prints and frees the next value. -/
theorem AfterValues.visit {n : Nat} {s : ValueLoopState} (h : AfterValues glib e n s)
    (hn : n < e.valuesLength) (hi : n + 1 < 65536) :
    ∃ t, visitValue glib nullText e s = some t ∧ AfterValues glib e (n + 1) t := by
  have hvalue : n < e.values.length := hn
  have hid : n < e.idsIDA.length := by rw [e.length_eq]; exact hvalue
  have hzip : n < (e.idsIDA.zip e.values).length := by
    rw [List.length_zip]
    omega
  have htake : (e.idsIDA.zip e.values).take (n + 1) =
      (e.idsIDA.zip e.values).take n ++ [(e.idsIDA[n], e.values[n])] := by
    rw [List.take_succ_eq_append_getElem hzip, List.getElem_zip]
  have hget : s.values[n]? = some (some e.values[n]) := by
    rw [h.values_get n le_rfl, List.getElem?_eq_getElem hvalue, Option.map_some]
  have hlength : n < s.values.length := (List.getElem?_eq_some_iff.mp hget).1
  refine ⟨⟨s.i + 1, s.values.set n none,
    s.afterOffset ++ valueText glib e.idsIDA[n] e.values[n],
    s.visits ++ [⟨n, e.idsIDA[n], some e.values[n]⟩]⟩, ?_, ?_⟩
  · simp only [visitValue, h.i_eq, hget, List.getElem?_eq_getElem hid, Option.bind_eq_bind,
      Option.bind_some]
    rfl
  · constructor
    · change (s.i + 1).toNat = n + 1
      rw [UInt16.toNat_add, h.i_eq]
      exact Nat.mod_eq_of_lt hi
    · intro k hk
      rw [List.getElem?_set_ne (by omega)]
      exact h.values_get k (by omega)
    · intro k hk
      rcases Nat.lt_or_eq_of_le (Nat.le_of_lt_succ hk) with hlt | heq
      · rw [List.getElem?_set_ne (by omega)]
        exact h.freed k hlt
      · rw [heq]
        exact List.getElem?_set_self hlength
    · change s.visits ++ _ = _
      rw [h.visits_eq, CollectQueueElement.visitsBefore, CollectQueueElement.visitsBefore, htake,
        List.mapIdx_append, List.length_take, Nat.min_eq_left hzip.le]
      simp
    · change s.afterOffset ++ _ = _
      rw [h.afterOffset_eq, htake]
      simp [renderValues]

variable (glib nullText)

/-- The first iterations, as many as the index counts, visit the first values. -/
theorem exists_iterate_prefix {n : Nat} (hn : n ≤ e.valuesLength) (hi : n < 65536) :
    ∃ t, (valueLoop glib nullText e).iterate n e.startValueLoop = some t ∧
      AfterValues glib e n t := by
  refine Loop.exists_iterate ?_ afterValues_zero (le_refl n)
  intro m s hm hs
  refine ⟨?_, hs.visit (by omega) (by omega)⟩
  rw [valueLoop_counts.guard_iff, hs.i_eq]
  omega

/-- Up to 65535 values the loop ends behind the last one. -/
theorem terminatesAfter_valuesLength (he : e.valuesLength < 65536) :
    ∃ t, (valueLoop glib nullText e).TerminatesAfter e.valuesLength e.startValueLoop t ∧
      AfterValues glib e e.valuesLength t := by
  obtain ⟨t, hiterate, ht⟩ :=
    exists_iterate_prefix glib nullText (le_refl e.valuesLength) he
  exact ⟨t, valueLoop_counts.terminatesAfter_bound he rfl hiterate, ht⟩

/-- From 65536 values on the loop has no end, and when the index has been through all its
values it stands at an entry that is freed. -/
theorem valueLoop_wraps (he : 65536 ≤ e.valuesLength) :
    (∀ n t, ¬ (valueLoop glib nullText e).TerminatesAfter n e.startValueLoop t) ∧
      ∀ t, (valueLoop glib nullText e).iterate 65536 e.startValueLoop = some t →
        t.i = 0 ∧ t.values[0]? = some none := by
  refine ⟨fun n t => valueLoop_counts.not_terminatesAfter he n _ t, ?_⟩
  intro t ht
  have hzero : t.i.toNat = 0 := valueLoop_counts.counter_iterate (s := e.startValueLoop) rfl ht
  refine ⟨UInt16.toNat_inj.mp hzero, ?_⟩
  -- the last iteration frees an entry other than the first, which was freed long before
  obtain ⟨s, hs, _, hbody⟩ := Loop.iterate_succ.mp ht
  obtain ⟨s', hs', hafter⟩ :=
    exists_iterate_prefix glib nullText (e := e) (n := 65535) (by omega) (by decide)
  rw [hs, Option.some.injEq] at hs'
  subst hs'
  rw [(visitValue_eq_some hbody).2, hafter.i_eq, List.getElem?_set_ne (by decide)]
  exact hafter.freed 0 (by decide)

end

/-- The loop visits every value once, in order, exactly when the 16-bit index can count the
values. -/
theorem value_loop_visits_once_iff (glib : GLib) (nullText : Option CString)
    (e : CollectQueueElement) : VisitsOnce glib nullText e ↔ e.valuesLength ≤ 65535 := by
  constructor
  · intro h
    obtain ⟨t, ht, _⟩ := h
    by_contra hlength
    exact (valueLoop_wraps glib nullText (by omega)).1 _ t ht
  · intro h
    obtain ⟨t, ht, hafter⟩ := terminatesAfter_valuesLength glib nullText (e := e) (by omega)
    exact ⟨t, ht, hafter.visits_eq⟩

example : exampleReading.visitsBefore 1 = [⟨0, 1, some (ascii "a")⟩] := by
  decide

/-- Where the text of a reading fits its buffers, the loop ends with that text. -/
theorem valueLoop_formatElement {glib : GLib} {e : CollectQueueElement} {text : CString}
    (nullText : Option CString) (h : formatElement glib e = some text) :
    ∃ t, (valueLoop glib nullText e).TerminatesAfter e.valuesLength e.startValueLoop t ∧
      t.afterOffset = text := by
  have hlength := valuesLength_lt_of_formatElement h
  obtain ⟨t, ht, hafter⟩ := terminatesAfter_valuesLength glib nullText (e := e) (by omega)
  refine ⟨t, ht, ?_⟩
  have hzip : (e.idsIDA.zip e.values).length ≤ e.valuesLength := by
    rw [List.length_zip]
    exact Nat.min_le_right _ _
  rw [hafter.afterOffset_eq, List.take_of_length_le hzip, (formatElement_eq_some.mp h).1]
  rfl

/-- A reading with 65536 values keeps the loop running: where a NULL value prints as `(null)`,
the 65537th iteration renders the first value after it was freed. -/
theorem wideReading_never_ends :
    ¬ VisitsOnce exampleGLib (some (ascii "(null)")) wideReading ∧
      ∀ n t, ¬ (valueLoop exampleGLib (some (ascii "(null)")) wideReading).TerminatesAfter n
        wideReading.startValueLoop t := by
  have hlength : wideReading.valuesLength = 65536 := List.length_replicate
  have hnever := (valueLoop_wraps exampleGLib (some (ascii "(null)")) hlength.ge).1
  refine ⟨?_, hnever⟩
  rintro ⟨t, ht, _⟩
  exact hnever _ t ht

end AlertProbe
