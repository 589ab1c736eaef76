import Mathlib

/-!
# Texts as lists of lines

The lines of a text, each with the separator that ends it, so that putting them
together gives the text back; the last line may lack its separator.  Tools that
keep or delete whole lines work on this list.

Main results:

- Theorem `flatten_textLines`: the lines make up the text.
- Theorem `textLines_flatten`: lists of lines are read back.
- Theorem `through_append_behind`: the lines up to a match and the lines behind it.
- Theorem `count_separator`: a text whose lines are all ended has as many lines as
  separators.
-/

namespace Foundations

universe u

section

variable {α : Type u} [DecidableEq α]

/-- The lines of a text with their separators. -/
def textLines (separator : α) : List α → List (List α)
  | [] => []
  | c :: rest =>
      if c = separator then [c] :: textLines separator rest
      else
        match textLines separator rest with
        | [] => [[c]]
        | line :: lines => (c :: line) :: lines

/-- A tool that works on the list of lines. -/
def onLines (separator : α) (edit : List (List α) → List (List α)) (text : List α) : List α :=
  (edit (textLines separator text)).flatten

/-- Every line is ended by the only separator in it. -/
def Ended (separator : α) (lines : List (List α)) : Prop :=
  ∀ line ∈ lines, ∃ content, line = content ++ [separator] ∧ separator ∉ content

/-- The lines make up the text. -/
theorem flatten_textLines (separator : α) (text : List α) :
    (textLines separator text).flatten = text := by
  induction text with
  | nil => rfl
  | cons c rest ih =>
      rw [textLines]
      by_cases hc : c = separator
      · rw [if_pos hc, List.flatten_cons, ih, List.singleton_append]
      · rw [if_neg hc]
        cases hlines : textLines separator rest with
        | nil =>
            rw [hlines] at ih
            simp [← ih]
        | cons line lines =>
            rw [hlines] at ih
            simp only [List.flatten_cons, List.cons_append] at ih ⊢
            rw [ih]

/-- A line is read up to its separator. -/
theorem textLines_line {separator : α} {content : List α} (h : separator ∉ content)
    (rest : List α) :
    textLines separator (content ++ separator :: rest) =
      (content ++ [separator]) :: textLines separator rest := by
  induction content with
  | nil => simp [textLines]
  | cons c content ih =>
      have hc : c ≠ separator := fun heq => h (by simp [heq])
      have hcontent : separator ∉ content := fun hmem => h (List.mem_cons_of_mem c hmem)
      rw [List.cons_append, textLines, if_neg hc, ih hcontent]
      rfl

/-- Ended lines in front of a text are lines of the whole. -/
theorem textLines_append {separator : α} {lines : List (List α)} (h : Ended separator lines)
    (rest : List α) :
    textLines separator (lines.flatten ++ rest) = lines ++ textLines separator rest := by
  induction lines with
  | nil => rfl
  | cons line lines ih =>
      rcases h line List.mem_cons_self with ⟨content, rfl, hcontent⟩
      have hlines := ih fun l hl => h l (List.mem_cons_of_mem _ hl)
      rw [List.flatten_cons, List.append_assoc, List.append_assoc, List.singleton_append,
        textLines_line hcontent, hlines, List.cons_append]

/-- Ended lines are read back. -/
theorem textLines_flatten {separator : α} {lines : List (List α)} (h : Ended separator lines) :
    textLines separator lines.flatten = lines := by
  have hall := textLines_append h []
  rwa [List.append_nil, textLines, List.append_nil] at hall

/-- No line is empty. -/
theorem ne_nil_of_mem_textLines {separator : α} {text line : List α}
    (h : line ∈ textLines separator text) : line ≠ [] := by
  induction text generalizing line with
  | nil => cases h
  | cons c rest ih =>
      rw [textLines] at h
      by_cases hc : c = separator
      · rw [if_pos hc] at h
        rcases List.mem_cons.mp h with rfl | hmem
        · exact List.cons_ne_nil c []
        · exact ih hmem
      · rw [if_neg hc] at h
        cases hlines : textLines separator rest with
        | nil =>
            rw [hlines] at h
            rw [List.mem_singleton.mp h]
            exact List.cons_ne_nil c []
        | cons first lines =>
            rw [hlines] at h
            rcases List.mem_cons.mp h with rfl | hmem
            · exact List.cons_ne_nil c first
            · exact ih (hlines ▸ List.mem_cons_of_mem first hmem)

/-- Every text is a list of ended lines and a line that is not. -/
theorem exists_ended (separator : α) (text : List α) :
    ∃ lines last, Ended separator lines ∧ separator ∉ last ∧ text = lines.flatten ++ last := by
  induction text with
  | nil => exact ⟨[], [], by simp [Ended], by simp, rfl⟩
  | cons c rest ih =>
      rcases ih with ⟨lines, last, hlines, hlast, rfl⟩
      by_cases hc : c = separator
      · refine ⟨[c] :: lines, last, ?_, hlast, rfl⟩
        intro line hline
        rcases List.mem_cons.mp hline with rfl | hmem
        · exact ⟨[], by rw [hc]; rfl, List.not_mem_nil⟩
        · exact hlines line hmem
      · cases lines with
        | nil =>
            refine ⟨[], c :: last, by simp [Ended], ?_, rfl⟩
            intro hmem
            rcases List.mem_cons.mp hmem with heq | hmem
            · exact hc heq.symm
            · exact hlast hmem
        | cons line lines =>
            refine ⟨(c :: line) :: lines, last, ?_, hlast, rfl⟩
            intro l hl
            rcases List.mem_cons.mp hl with rfl | hmem
            · rcases hlines line List.mem_cons_self with ⟨content, rfl, hcontent⟩
              refine ⟨c :: content, rfl, ?_⟩
              intro hmem
              rcases List.mem_cons.mp hmem with heq | hmem
              · exact hc heq.symm
              · exact hcontent hmem
            · exact hlines l (List.mem_cons_of_mem line hmem)

omit [DecidableEq α] in
/-- The line that is not ended is empty exactly when the text ends with a separator. -/
theorem last_eq_nil_iff {separator : α} {lines : List (List α)} {last : List α}
    (hlines : Ended separator lines) (hlast : separator ∉ last)
    (hne : lines.flatten ++ last ≠ []) :
    last = [] ↔ [separator] <:+ lines.flatten ++ last := by
  constructor
  · rintro rfl
    rcases List.eq_nil_or_concat lines with rfl | ⟨front, line, rfl⟩
    · exact absurd rfl hne
    · rw [List.concat_eq_append] at hlines ⊢
      rcases hlines line (List.mem_append_right front List.mem_cons_self) with ⟨content, rfl, _⟩
      rw [List.append_nil, List.flatten_append, List.flatten_singleton, ← List.append_assoc]
      exact List.suffix_append _ _
  · rintro ⟨before, hbefore⟩
    rcases List.eq_nil_or_concat last with rfl | ⟨front, c, rfl⟩
    · rfl
    · rw [List.concat_eq_append, ← List.append_assoc] at hbefore
      have hc := (List.append_inj' hbefore rfl).2
      rw [List.concat_eq_append, ← hc] at hlast
      exact absurd (List.mem_append_right front (List.mem_singleton_self separator)) hlast

/-- A text that ends with a separator has ended lines only. -/
theorem exists_ended_of_suffix {separator : α} {text : List α} (h : [separator] <:+ text) :
    ∃ lines, Ended separator lines ∧ text = lines.flatten := by
  rcases exists_ended separator text with ⟨lines, last, hlines, hlast, rfl⟩
  have hne : lines.flatten ++ last ≠ [] := by
    intro hnil
    rw [hnil] at h
    exact List.cons_ne_nil _ _ (List.suffix_nil.mp h)
  have hnil := (last_eq_nil_iff hlines hlast hne).mpr h
  exact ⟨lines, hlines, by rw [hnil, List.append_nil]⟩

/-- Where all lines are ended there are as many lines as separators. -/
theorem count_separator {separator : α} {lines : List (List α)} (h : Ended separator lines) :
    lines.flatten.count separator = lines.length := by
  induction lines with
  | nil => rfl
  | cons line lines ih =>
      rcases h line List.mem_cons_self with ⟨content, rfl, hcontent⟩
      have hlines := ih fun l hl => h l (List.mem_cons_of_mem _ hl)
      rw [List.flatten_cons, List.count_append, List.count_append, List.count_singleton_self,
        List.count_eq_zero_of_not_mem hcontent, hlines, List.length_cons]
      omega

end

/-- Dropping as many lines as a list has from behind it. -/
theorem rdrop_append {β : Type u} (front back : List β) {n : Nat} (h : back.length = n) :
    (front ++ back).rdrop n = front := by
  rw [List.rdrop, List.length_append, h, Nat.add_sub_cancel, List.take_left]

/-! ## Lines up to a match -/

section Match

variable {β : Type u} (p : β → Bool)

/-- The lines up to the first match: `sed '/pattern/q'`. -/
def through : List β → List β
  | [] => []
  | line :: lines => if p line then [line] else line :: through lines

/-- The lines behind the first match. -/
def behind : List β → List β
  | [] => []
  | line :: lines => if p line then lines else behind lines

/-- `sed '1,/pattern/d'`: the first line is deleted without a look at it, and then the lines up
to a match. -/
def behindRange (lines : List β) : List β :=
  behind p lines.tail

variable {p}

/-- The lines up to a match and the lines behind it are all lines. -/
theorem through_append_behind (lines : List β) : through p lines ++ behind p lines = lines := by
  induction lines with
  | nil => rfl
  | cons line lines ih =>
      by_cases hline : p line = true
      · rw [through, behind, if_pos hline, if_pos hline, List.singleton_append]
      · rw [through, behind, if_neg hline, if_neg hline, List.cons_append, ih]

/-- A first line that does not match makes no difference. -/
theorem behindRange_cons {line : β} (h : p line = false) (lines : List β) :
    behindRange p (line :: lines) = behind p (line :: lines) := by
  rw [behindRange, behind, h, List.tail_cons]
  rfl

/-- The lines up to the match that ends a list of lines without one. -/
theorem through_append {front : List β} (h : ∀ line ∈ front, p line = false) {line : β}
    (hline : p line = true) (rest : List β) :
    through p (front ++ line :: rest) = front ++ [line] := by
  induction front with
  | nil => rw [List.nil_append, through, if_pos hline, List.nil_append]
  | cons first front ih =>
      rw [List.cons_append, through, h first List.mem_cons_self,
        ih fun l hl => h l (List.mem_cons_of_mem first hl)]
      rfl

/-- The lines behind the match that ends a list of lines without one. -/
theorem behind_append {front : List β} (h : ∀ line ∈ front, p line = false) {line : β}
    (hline : p line = true) (rest : List β) :
    behind p (front ++ line :: rest) = rest := by
  induction front with
  | nil => rw [List.nil_append, behind, if_pos hline]
  | cons first front ih =>
      rw [List.cons_append, behind, h first List.mem_cons_self,
        ih fun l hl => h l (List.mem_cons_of_mem first hl)]
      rfl

end Match

end Foundations
