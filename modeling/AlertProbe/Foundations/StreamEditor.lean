import Mathlib

/-!
# Tools that work on the lines of a text

A substitution `s/pattern/replacement/g` whose pattern has no special characters
replaces the occurrences of the pattern from left to right; an occurrence starts
behind the end of the one before it.  A script applies its substitutions one
after the other, each to what the one before it has made.  Beside them stand the
lines of a text, the search for a pattern without special characters and the
fields of a line.

Main results:

- Theorem `Substitution.apply_match` and `Substitution.apply_cons`: a
  substitution goes through a line from left to right.
- Theorem `script_eq_flatMap`: a script of substitutions for single symbols acts
  on all symbols at once when no replacement holds the symbol of a later one.
- Theorem `eachLine_symbolScript`: such a script can be applied to a whole text
  instead of its lines.
- Theorem `linesOf_unlines`: the lines of a text that is made of lines.
- Theorem `lastSplit_append`: what a greedy `.*` takes.
- Theorem `cut_first` and `cut_second`: the fields around a delimiter.
- Theorem `runsInduction`: a list is divided into runs of one symbol.
- Theorem `replicate_append_cons_inj`: the first of these runs is unique.
-/

namespace Foundations

universe u

/-- The command `s/pattern/replacement/g`; an empty pattern would stand for another one. -/
structure Substitution (α : Type u) where
  pattern : List α
  replacement : List α
  pattern_ne_nil : pattern ≠ []

namespace Substitution

variable {α : Type u} [DecidableEq α]

/-- Go through a line, whose first symbols may still belong to the last occurrence. -/
def applyFrom (r : Substitution α) : Nat → List α → List α
  | _, [] => []
  | skip + 1, _ :: rest => r.applyFrom skip rest
  | 0, c :: rest =>
      if r.pattern.isPrefixOf (c :: rest) then
        r.replacement ++ r.applyFrom (r.pattern.length - 1) rest
      else c :: r.applyFrom 0 rest

/-- Replace every occurrence in a line. -/
def apply (r : Substitution α) (line : List α) : List α :=
  r.applyFrom 0 line

/-- Symbols of the last occurrence are passed over. -/
theorem applyFrom_append (r : Substitution α) (passed rest : List α) :
    r.applyFrom passed.length (passed ++ rest) = r.apply rest := by
  induction passed with
  | nil => rfl
  | cons c passed ih => exact ih

@[simp]
theorem apply_nil (r : Substitution α) : r.apply [] = [] :=
  rfl

/-- An occurrence at the start of a line is replaced. -/
theorem apply_match (r : Substitution α) (rest : List α) :
    r.apply (r.pattern ++ rest) = r.replacement ++ r.apply rest := by
  obtain ⟨c, passed, hpattern⟩ := List.exists_cons_of_ne_nil r.pattern_ne_nil
  have hprefix : r.pattern.isPrefixOf (r.pattern ++ rest) = true :=
    List.isPrefixOf_iff_prefix.mpr (List.prefix_append _ _)
  have hlength : r.pattern.length - 1 = passed.length := by
    rw [hpattern]
    rfl
  rw [hpattern] at hprefix
  rw [apply, hpattern, List.cons_append, applyFrom, hpattern, ← List.cons_append, if_pos hprefix,
    ← hpattern, hlength, applyFrom_append]

/-- A symbol at which no occurrence starts is copied. -/
theorem apply_cons (r : Substitution α) {c : α} {rest : List α}
    (h : ¬ r.pattern <+: c :: rest) : r.apply (c :: rest) = c :: r.apply rest := by
  rw [← List.isPrefixOf_iff_prefix, Bool.not_eq_true] at h
  rw [apply, applyFrom, h]
  rfl

end Substitution

section

variable {α : Type u} [DecidableEq α]

/-- Apply substitutions one after the other. -/
def script (rules : List (Substitution α)) (line : List α) : List α :=
  rules.foldl (fun line r => r.apply line) line

@[simp]
theorem script_nil (line : List α) : script [] line = line :=
  rfl

@[simp]
theorem script_cons (r : Substitution α) (rules : List (Substitution α)) (line : List α) :
    script (r :: rules) line = script rules (r.apply line) :=
  rfl

/-! ## Substitutions for single symbols -/

/-- The command `s/symbol/replacement/g`. -/
def Substitution.single (symbol : α) (replacement : List α) : Substitution α where
  pattern := [symbol]
  replacement := replacement
  pattern_ne_nil := List.cons_ne_nil _ _

/-- It replaces every occurrence of its symbol. -/
theorem Substitution.apply_single (symbol : α) (replacement line : List α) :
    (Substitution.single symbol replacement).apply line =
      line.flatMap fun c => if c = symbol then replacement else [c] := by
  induction line with
  | nil => rfl
  | cons c line ih =>
      by_cases hc : c = symbol
      · subst hc
        have hmatch := (Substitution.single c replacement).apply_match line
        rw [show c :: line = (Substitution.single c replacement).pattern ++ line from rfl, hmatch,
          ih]
        simp [Substitution.single]
      · have hcopy : ¬ (Substitution.single symbol replacement).pattern <+: c :: line := by
          simp [Substitution.single, Ne.symm hc]
        rw [Substitution.apply_cons _ hcopy, ih]
        simp [hc]

/-- With an empty replacement it drops its symbol. -/
theorem Substitution.apply_single_nil (symbol : α) (line : List α) :
    (Substitution.single symbol []).apply line = line.filter (· ≠ symbol) := by
  rw [apply_single]
  induction line with
  | nil => rfl
  | cons c line ih =>
      by_cases hc : c = symbol <;> simp [hc, ih]

/-- What a table of symbols and replacements makes of one symbol. -/
def lookupSymbol (table : List (α × List α)) (c : α) : List α :=
  (table.lookup c).getD [c]

/-- A table of symbols and replacements as a script. -/
def symbolScript (table : List (α × List α)) : List (Substitution α) :=
  table.map fun p => Substitution.single p.1 p.2

/-- What holds none of the symbols stays as it is. -/
theorem symbolScript_eq_self {table : List (α × List α)} {line : List α}
    (h : ∀ p ∈ table, p.1 ∉ line) : script (symbolScript table) line = line := by
  induction table with
  | nil => rfl
  | cons p table ih =>
      have hkeep : (Substitution.single p.1 p.2).apply line = line := by
        rw [Substitution.apply_single]
        have hp := h p List.mem_cons_self
        refine (List.flatMap_congr (g := fun c => [c]) fun c hc => ?_).trans
          (List.flatMap_singleton' line)
        rw [if_neg]
        rintro rfl
        exact hp hc
      rw [symbolScript, List.map_cons, script_cons, hkeep]
      exact ih fun q hq => h q (List.mem_cons_of_mem p hq)

/-- A script works on the parts of a line one by one when its patterns are single symbols. -/
theorem symbolScript_append (table : List (α × List α)) (front back : List α) :
    script (symbolScript table) (front ++ back) =
      script (symbolScript table) front ++ script (symbolScript table) back := by
  induction table generalizing front back with
  | nil => rfl
  | cons p table ih =>
      simp only [symbolScript, List.map_cons, script_cons, Substitution.apply_single,
        List.flatMap_append]
      exact ih _ _

/-- No replacement holds the symbol of a later substitution. -/
def Untouched (table : List (α × List α)) : Prop :=
  table.Pairwise fun p q => q.1 ∉ p.2

instance (table : List (α × List α)) : Decidable (Untouched table) :=
  inferInstanceAs (Decidable (table.Pairwise fun p q => q.1 ∉ p.2))

/-- One symbol under such a script. -/
theorem script_singleton {table : List (α × List α)} (h : Untouched table) (c : α) :
    script (symbolScript table) [c] = lookupSymbol table c := by
  induction table with
  | nil => rfl
  | cons p table ih =>
      obtain ⟨hp, htable⟩ := List.pairwise_cons.mp h
      rw [symbolScript, List.map_cons, script_cons, Substitution.apply_single,
        List.flatMap_singleton]
      by_cases hc : c = p.1
      · rw [if_pos hc, lookupSymbol, List.lookup_cons, hc, beq_self_eq_true, Option.getD_some]
        exact symbolScript_eq_self hp
      · rw [if_neg hc, lookupSymbol, List.lookup_cons, beq_false_of_ne hc]
        exact ih htable

/-- The script acts on all symbols at once. -/
theorem script_eq_flatMap {table : List (α × List α)} (h : Untouched table) (line : List α) :
    script (symbolScript table) line = line.flatMap (lookupSymbol table) := by
  induction line with
  | nil => exact symbolScript_eq_self fun _ _ => List.not_mem_nil
  | cons c line ih =>
      have hsplit : c :: line = [c] ++ line := rfl
      rw [hsplit, symbolScript_append, script_singleton h, ih, List.flatMap_append,
        List.flatMap_singleton]

/-! ## The lines of a text -/

/-- Edit the lines of a text, which are divided by a separator. -/
def eachLine (separator : α) (edit : List α → List α) (text : List α) : List α :=
  [separator].intercalate ((text.splitOn separator).map edit)

omit [DecidableEq α] in
/-- An edit of the symbols goes into lines that are put together. -/
theorem intercalate_flatMap {separator : α} {g : α → List α} (hg : g separator = [separator])
    (lines : List (List α)) :
    ([separator].intercalate lines).flatMap g =
      [separator].intercalate (lines.map fun line => line.flatMap g) := by
  induction lines with
  | nil => rfl
  | cons line lines ih =>
      cases lines with
      | nil => simp
      | cons next lines =>
          rw [List.map_cons, List.intercalate_cons_cons] at *
          rw [List.map_cons, List.intercalate_cons_cons, List.flatMap_append,
            List.flatMap_append, ih, List.flatMap_singleton, hg]

/-- A script for single symbols that keeps the separator works on the whole text. -/
theorem eachLine_symbolScript {table : List (α × List α)} (h : Untouched table) {separator : α}
    (hseparator : lookupSymbol table separator = [separator]) (text : List α) :
    eachLine separator (script (symbolScript table)) text =
      text.flatMap (lookupSymbol table) := by
  have hscript : script (symbolScript table) = fun line => line.flatMap (lookupSymbol table) :=
    funext (script_eq_flatMap h)
  rw [eachLine, hscript, ← intercalate_flatMap hseparator, List.intercalate_splitOn]

/-- The lines of a text; the last one may lack its separator. -/
def linesOf (separator : α) (text : List α) : List (List α) :=
  if (text.splitOn separator).getLast? = some [] then (text.splitOn separator).dropLast
  else text.splitOn separator

/-- The separator is in no piece. -/
theorem not_mem_of_mem_splitOn {separator : α} {text piece : List α}
    (h : piece ∈ text.splitOn separator) : separator ∉ piece := by
  induction text generalizing piece with
  | nil =>
      rw [List.splitOn_nil, List.mem_singleton] at h
      rw [h]
      exact List.not_mem_nil
  | cons c text ih =>
      rw [List.splitOn_cons_eq_if_modifyHead] at h
      split at h
      · rcases List.mem_cons.mp h with rfl | hmem
        · exact List.not_mem_nil
        · exact ih hmem
      · rename_i hc
        cases hpieces : text.splitOn separator with
        | nil => exact absurd hpieces (List.splitOn_ne_nil separator text)
        | cons first pieces =>
            rw [hpieces, List.modifyHead_cons] at h
            rcases List.mem_cons.mp h with rfl | hmem
            · rw [List.mem_cons, not_or]
              exact ⟨fun heq => hc (by simp [heq]), ih (hpieces ▸ List.mem_cons_self)⟩
            · exact ih (hpieces ▸ List.mem_cons_of_mem first hmem)

/-- Lines with a separator behind each. -/
def unlines (separator : α) (lines : List (List α)) : List α :=
  lines.flatMap fun line => line ++ [separator]

omit [DecidableEq α] in
/-- Nothing is put together but the lines and the separators. -/
theorem mem_unlines {separator : α} {lines : List (List α)} {a : α}
    (h : a ∈ unlines separator lines) : a = separator ∨ ∃ line ∈ lines, a ∈ line := by
  obtain ⟨line, hline, hmem⟩ := List.mem_flatMap.mp h
  rcases List.mem_append.mp hmem with hmem | hmem
  · exact Or.inr ⟨line, hline, hmem⟩
  · exact Or.inl (List.mem_singleton.mp hmem)

/-- Lines that are put together are divided at the ends of the lines. -/
theorem splitOn_unlines {separator : α} {lines : List (List α)}
    (h : ∀ line ∈ lines, separator ∉ line) :
    (unlines separator lines).splitOn separator = lines ++ [[]] := by
  induction lines with
  | nil => rfl
  | cons line lines ih =>
      have hline := h line List.mem_cons_self
      have hrest := ih fun l hl => h l (List.mem_cons_of_mem line hl)
      rw [unlines, List.flatMap_cons, List.append_assoc, List.singleton_append,
        List.splitOn_append_cons_self_of_not_mem hline, ← unlines, hrest, List.cons_append]

/-- The lines of a text that is made of lines. -/
theorem linesOf_unlines {separator : α} {lines : List (List α)}
    (h : ∀ line ∈ lines, separator ∉ line) :
    linesOf separator (unlines separator lines) = lines := by
  rw [linesOf, splitOn_unlines h, List.getLast?_concat, if_pos rfl, List.dropLast_concat]

/-- A pattern occurs in a line. -/
def hasMatch (pattern line : List α) : Bool :=
  line.tails.any fun rest => pattern.isPrefixOf rest

/-- An occurrence is an infix. -/
theorem hasMatch_iff {pattern line : List α} :
    hasMatch pattern line = true ↔ pattern <:+: line := by
  simp only [hasMatch, List.any_eq_true, List.mem_tails, List.isPrefixOf_iff_prefix,
    List.infix_iff_prefix_suffix, and_comm]

/-- A pattern occurs at the start of a line or behind its first symbol. -/
theorem hasMatch_cons (pattern : List α) (c : α) (line : List α) :
    hasMatch pattern (c :: line) =
      (pattern.isPrefixOf (c :: line) || hasMatch pattern line) :=
  rfl

/-- Of a line without the first symbol of the pattern nothing can be part of an occurrence. -/
theorem hasMatch_append {q : α} {pattern front : List α} (hfront : q ∉ front)
    (rest : List α) : hasMatch (q :: pattern) (front ++ rest) = hasMatch (q :: pattern) rest := by
  induction front with
  | nil => rfl
  | cons c front ih =>
      have hc : q ≠ c := fun hc => hfront (by simp [hc])
      rw [List.cons_append, hasMatch_cons, ih fun h => hfront (List.mem_cons_of_mem c h),
        List.isPrefixOf_cons_cons, beq_false_of_ne hc, Bool.false_and, Bool.false_or]

/-- A quoted key in a line that starts with a quoted text. -/
theorem hasMatch_quoted {q : α} {key text : List α} (hkey : q ∉ key) (htext : q ∉ text)
    (rest : List α) :
    hasMatch (q :: (key ++ [q])) (q :: (text ++ q :: rest)) =
      (decide (key = text) || hasMatch (q :: (key ++ [q])) (q :: rest)) := by
  have hprefix : (key ++ [q]).isPrefixOf (text ++ q :: rest) = decide (key = text) := by
    induction key generalizing text with
    | nil =>
        cases text with
        | nil => simp
        | cons c text =>
            have hc : q ≠ c := fun hc => htext (by simp [hc])
            simp [List.isPrefixOf_cons_cons, hc]
    | cons d key ih =>
        have hd : d ≠ q := fun hd => hkey (by simp [hd])
        cases text with
        | nil => simp [List.isPrefixOf_cons_cons, hd]
        | cons c text =>
            have hrest : (key ++ [q]).isPrefixOf (text ++ q :: rest) = decide (key = text) :=
              ih (fun h => hkey (List.mem_cons_of_mem d h))
                (fun h => htext (List.mem_cons_of_mem c h))
            rw [List.cons_append, List.cons_append, List.isPrefixOf_cons_cons, hrest]
            by_cases hdc : d = c <;> simp [hdc]
  rw [hasMatch_cons, List.isPrefixOf_cons_cons, beq_self_eq_true, Bool.true_and, hprefix,
    hasMatch_append htext]

/-- A quoted key needs two quotes. -/
theorem hasMatch_end {q : α} {key rest : List α} (hrest : q ∉ rest) :
    hasMatch (q :: (key ++ [q])) (q :: rest) = false := by
  rw [← Bool.not_eq_true, hasMatch_iff]
  intro hinfix
  have hcount := hinfix.sublist.count_le q
  have hzero := List.count_eq_zero.mpr hrest
  simp only [List.count_cons_self, List.count_append, List.count_nil] at hcount
  omega

omit [DecidableEq α] in
/-- Divide a line at the last place behind which it goes on as wanted: what a greedy `.*` takes,
and the rest. -/
def lastSplit (p : List α → Bool) : List α → Option (List α × List α)
  | [] => if p [] then some ([], []) else none
  | c :: rest =>
      match lastSplit p rest with
      | some (front, back) => some (c :: front, back)
      | none => if p (c :: rest) then some ([], c :: rest) else none

omit [DecidableEq α] in
/-- There is no such place. -/
theorem lastSplit_eq_none_iff {p : List α → Bool} {line : List α} :
    lastSplit p line = none ↔ ∀ rest ∈ line.tails, p rest = false := by
  induction line with
  | nil => simp [lastSplit]
  | cons c line ih =>
      rw [lastSplit, List.tails_cons, List.forall_mem_cons, ← ih]
      cases lastSplit p line with
      | some found => simp
      | none => simp

/-- There is no place for a pattern that does not occur. -/
theorem lastSplit_eq_none {p : List α → Bool} {pattern line : List α}
    (hp : ∀ rest, p rest = true → pattern.isPrefixOf rest = true)
    (hline : hasMatch pattern line = false) : lastSplit p line = none := by
  rw [lastSplit_eq_none_iff]
  intro rest hrest
  rw [hasMatch, List.any_eq_false] at hline
  rw [← Bool.not_eq_true]
  exact fun h => hline rest hrest (hp rest h)

omit [DecidableEq α] in
/-- A line is divided at the last place. -/
theorem lastSplit_append {p : List α → Bool} {c : α} {back : List α} (hp : p (c :: back) = true)
    (hback : lastSplit p back = none) (front : List α) :
    lastSplit p (front ++ c :: back) = some (front, c :: back) := by
  induction front with
  | nil => simp [lastSplit, hback, hp]
  | cons d front ih => rw [List.cons_append, lastSplit, ih]

/-- A field of a line, counted from one; a line without the delimiter is kept whole. -/
def cut (delimiter : α) (field : Nat) (line : List α) : List α :=
  if delimiter ∈ line then ((line.splitOn delimiter)[field - 1]?).getD [] else line

/-- A line without the delimiter is kept whole. -/
theorem cut_eq_self {delimiter : α} (field : Nat) {line : List α} (h : delimiter ∉ line) :
    cut delimiter field line = line :=
  if_neg h

/-- The field in front of the first delimiter. -/
theorem cut_first {delimiter : α} {front : List α} (hfront : delimiter ∉ front)
    (back : List α) : cut delimiter 1 (front ++ delimiter :: back) = front := by
  rw [cut, if_pos (by simp), List.splitOn_append_cons_self_of_not_mem hfront]
  rfl

/-- All symbols of a line without the delimiter are other ones. -/
theorem all_bne_of_not_mem {delimiter : α} {line : List α} (h : delimiter ∉ line) :
    ∀ c ∈ line, (c != delimiter) = true := by
  intro c hc
  rw [bne_iff_ne]
  rintro rfl
  exact h hc

/-- The first piece of a line goes up to a delimiter. -/
theorem splitOn_getElem_zero (delimiter : α) (line : List α) :
    (line.splitOn delimiter)[0]? = some (line.takeWhile (· != delimiter)) := by
  by_cases h : delimiter ∈ line
  · obtain ⟨front, back, rfl, hfront⟩ := List.eq_append_cons_of_mem h
    have hall := all_bne_of_not_mem hfront
    rw [List.splitOn_append_cons_self_of_not_mem hfront, List.takeWhile_append_of_pos hall,
      List.takeWhile_cons_of_neg (by simp), List.append_nil]
    rfl
  · rw [List.splitOn_eq_singleton h, List.takeWhile_eq_self_iff.mpr (all_bne_of_not_mem h)]
    rfl

/-- The first field goes up to a delimiter. -/
theorem cut_one (delimiter : α) (line : List α) :
    cut delimiter 1 line = line.takeWhile (· != delimiter) := by
  rw [cut, splitOn_getElem_zero]
  split
  · rfl
  · rename_i h
    exact (List.takeWhile_eq_self_iff.mpr (all_bne_of_not_mem h)).symm

/-- The second field goes from a delimiter up to the next one. -/
theorem cut_two (delimiter : α) (line : List α) :
    cut delimiter 2 line =
      if delimiter ∈ line then
        (line.dropWhile (· != delimiter)).tail.takeWhile (· != delimiter)
      else line := by
  by_cases h : delimiter ∈ line
  · obtain ⟨front, back, rfl, hfront⟩ := List.eq_append_cons_of_mem h
    have hall := all_bne_of_not_mem hfront
    have hsecond := splitOn_getElem_zero delimiter back
    rw [cut, if_pos h, if_pos h, List.splitOn_append_cons_self_of_not_mem hfront,
      List.dropWhile_append_of_pos hall, List.dropWhile_cons_of_neg (by simp), List.tail_cons]
    simp only [Nat.reduceSub, List.getElem?_cons_succ, hsecond, Option.getD_some]
  · rw [cut_eq_self 2 h, if_neg h]

/-- The field behind the only delimiter. -/
theorem cut_second {delimiter : α} {front back : List α} (hfront : delimiter ∉ front)
    (hback : delimiter ∉ back) : cut delimiter 2 (front ++ delimiter :: back) = back := by
  rw [cut, if_pos (by simp), List.splitOn_append_cons_self_of_not_mem hfront,
    List.splitOn_eq_singleton hback]
  rfl

end

/-! ## Runs of a symbol -/

section Runs

variable {α : Type u} {a : α}

/-- Induction over the runs of one symbol: the last run, or a run and another symbol in front of
a list. -/
theorem runsInduction [DecidableEq α] {motive : List α → Prop}
    (last : ∀ n, motive (List.replicate n a))
    (run : ∀ n c rest, c ≠ a → motive rest → motive (List.replicate n a ++ c :: rest))
    (line : List α) : motive line := by
  have hrun : ∀ n, motive (List.replicate n a ++ line) := by
    induction line with
    | nil =>
        intro n
        rw [List.append_nil]
        exact last n
    | cons c line ih =>
        intro n
        by_cases hc : c = a
        · have hgrow : List.replicate n a ++ c :: line = List.replicate (n + 1) a ++ line := by
            rw [hc, List.replicate_succ', List.append_assoc]
            rfl
          rw [hgrow]
          exact ih (n + 1)
        · exact run n c line hc (ih 0)
  exact hrun 0

/-- The run at the start of a list is unique. -/
theorem replicate_append_cons_inj {m n : Nat} {c d : α} {front back : List α} (hc : c ≠ a)
    (hd : d ≠ a) :
    List.replicate m a ++ c :: front = List.replicate n a ++ d :: back ↔
      m = n ∧ c = d ∧ front = back := by
  induction m generalizing n with
  | zero =>
      cases n with
      | zero => simp
      | succ n => simp [List.replicate_succ, hc]
  | succ m ih =>
      cases n with
      | zero => simp [List.replicate_succ, Ne.symm hd]
      | succ n =>
          simp only [List.replicate_succ, List.cons_append, List.cons.injEq, true_and, ih,
            Nat.add_right_cancel_iff]

end Runs

end Foundations
