import AlertProbe.Pipeline.Faults

/-!
# The buffers of popCollectQueue

`popCollectQueue` prints a reading into `afterOffset` and each of its values into
`afterOffsetTmp`, both of 10000 bytes.  Nothing bounds the number of values or their
lengths, and each byte of a value can become three.

Main results:

- Theorem `renderOffset_length`: the bytes that the rendering of a reading takes.
- Theorem `formattedLength_le`: a bound from the raw sizes of a reading.
- Theorem `format_fits_iff`: which readings fit, and the runs in which all of them do.
- Theorem `escaped_reading_overflows`: a reading that overflows although its raw values
  would fit.
-/

namespace AlertProbe

open Foundations

/-- Bytes that a value takes: blank, id, equals sign, quotes and the escaped text. -/
def valueLength (glib : GLib) (p : Int32 × CString) : Nat :=
  4 + (decimal p.1.toInt).length + (glib.g_uri_escape_string p.2).length

/-- Bytes that a reading takes in `afterOffset`, less the NUL. -/
def formattedLength (glib : GLib) (e : CollectQueueElement) : Nat :=
  17 + (decimal e.lotNum.toInt).length + (decimal e.lineNum.toInt).length +
    ((e.idsIDA.zip e.values).map (valueLength glib)).sum

/-- The text printed for one value has its length. -/
theorem valueText_length (glib : GLib) (id : Int32) (value : CString) :
    (valueText glib id value).length = valueLength glib (id, value) := by
  have hblank : (ascii " ").length = 1 := rfl
  have hequals : (ascii "=\"").length = 2 := rfl
  have hquote : (ascii "\"").length = 1 := rfl
  simp only [valueText, valueLength, List.length_append, hblank, hequals, hquote]
  omega

/-- The texts of all values take the sum of their lengths. -/
theorem renderValues_length_eq (glib : GLib) (values : List (Int32 × CString)) :
    (renderValues glib values).length = (values.map (valueLength glib)).sum := by
  induction values with
  | nil => rfl
  | cons p values ih =>
      simp only [renderValues, List.flatMap_cons, List.length_append, List.map_cons,
        List.sum_cons] at ih ⊢
      rw [ih, valueText_length]

/-- The rendering of a reading has the length of its parts. -/
theorem renderOffset_length (glib : GLib) (e : CollectQueueElement) :
    (renderOffset glib e).length = formattedLength glib e := by
  have hlot : (ascii " lotNum=").length = 8 := rfl
  have hline : (ascii " lineNum=").length = 9 := rfl
  simp only [renderOffset, lotText, formattedLength, List.length_append, hlot, hline,
    renderValues_length_eq]
  omega

/-- Numbers take at most eleven bytes and values at most three times their own. -/
theorem formattedLength_le {glib : GLib} (hglib : glib.Documented) (e : CollectQueueElement) :
    formattedLength glib e ≤ 39 + (e.values.map fun value => 15 + 3 * value.length).sum := by
  have hlot := decimal_int32_length e.lotNum
  have hline := decimal_int32_length e.lineNum
  have hvalues : ∀ (ids : List Int32) (values : List CString), ids.length = values.length →
      ((ids.zip values).map (valueLength glib)).sum ≤
        (values.map fun value => 15 + 3 * value.length).sum := by
    intro ids values hlength
    induction values generalizing ids with
    | nil => simp
    | cons value values ih =>
        cases ids with
        | nil => simp at hlength
        | cons id ids =>
            have hid := decimal_int32_length id
            have hescaped := (hglib.escapes value).length_le
            have hrest := ih ids (by simpa using hlength)
            simp only [List.zip_cons_cons, List.map_cons, List.sum_cons, valueLength]
              at hrest ⊢
            omega
  have hsum := hvalues e.idsIDA e.values e.length_eq
  unfold formattedLength
  omega

/-- The buffers of `popCollectQueue` hold every text that it prints for a reading, exactly when
the reading takes at most 9999 bytes.  In every run whose readings all do, the format thread
overflows neither of the two buffers. -/
theorem format_fits_iff (p : Params) :
    (∀ e : CollectQueueElement,
      (∃ text, formatElement p.glib e = some text) ↔ formattedLength p.glib e ≤ 9999) ∧
    (∀ s : State, (probe p).Reachable s →
      (∀ e ∈ s.history.pushed, formattedLength p.glib e ≤ 9999) →
        formatStep p s = .undefined → ∃ text time, newSDElement p.header text time = none) := by
  have hfits : ∀ e : CollectQueueElement,
      (∃ text, formatElement p.glib e = some text) ↔ formattedLength p.glib e ≤ 9999 := by
    intro e
    rw [← renderOffset_length]
    constructor
    · intro h
      obtain ⟨text, htext⟩ := h
      have hlength := (formatElement_eq_some.mp htext).2
      omega
    · intro h
      exact ⟨_, formatElement_eq_some.mpr ⟨rfl, by omega⟩⟩
  refine ⟨hfits, ?_⟩
  intro s hs hpushed hundefined
  obtain ⟨e, next, hfirst, hfault⟩ := formatStep_undefined hundefined
  have hmem : e ∈ s.history.pushed := first_subset_pushed hs (by simp [hfirst])
  obtain ⟨text, htext⟩ := (hfits e).mpr (hpushed e hmem)
  rcases hfault with hnone | ⟨text', _, hnew⟩
  · rw [htext] at hnone
    cases hnone
  · exact ⟨text', e.time, hnew⟩

/-- The first reading of the unit tests fits. -/
theorem format_fits_iff_reading : ∃ text, formatElement exampleGLib exampleReading = some text :=
  ((format_fits_iff exampleParams).1 exampleReading).mpr (by decide)

/-- The blanks take 9990 bytes when they are escaped, and with the rest of the reading they do
not fit. -/
theorem escaped_reading_overflows : formatElement exampleGLib blankReading = none := by
  have hescaped : ∀ n, (escapeBytes (List.replicate n (charByte ' '))).length = 3 * n := by
    intro n
    induction n with
    | zero => rfl
    | succ n ih =>
        have hblank : (escapeBytes [charByte ' ']).length = 3 := rfl
        have hsplit : escapeBytes (List.replicate (n + 1) (charByte ' ')) =
            escapeBytes [charByte ' '] ++ escapeBytes (List.replicate n (charByte ' ')) := by
          simp [escapeBytes, List.replicate_succ]
        rw [hsplit, List.length_append, hblank, ih]
        omega
  have hlength : formattedLength exampleGLib blankReading = 10014 := by
    have hvalue := hescaped 3330
    have hsix : (decimal (6 : Int32).toInt).length = 1 := rfl
    have hfive : (decimal (5 : Int32).toInt).length = 1 := rfl
    have hone : (decimal (1 : Int32).toInt).length = 1 := rfl
    simp only [formattedLength, blankReading, List.zip_cons_cons, List.zip_nil_right,
      List.map_cons, List.map_nil, List.sum_cons, List.sum_nil, valueLength, exampleGLib,
      hvalue, hsix, hfive, hone]
    omega
  cases htext : formatElement exampleGLib blankReading with
  | none => rfl
  | some text =>
      have hfits := (formatElement_eq_some.mp htext).2
      rw [renderOffset_length, hlength] at hfits
      omega

end AlertProbe
