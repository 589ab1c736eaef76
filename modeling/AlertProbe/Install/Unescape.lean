import AlertProbe.Model.Install

/-!
# The unescaping of informations.json

`decodePairs` reads each escape pair once, from left to right.  The installer
first makes one backslash of two and then drops a backslash in front of a slash,
so a backslash that the first substitution has made can become the escape of the
second.  Both are followed run by run: `n` backslashes and the symbol behind them.

Main results:

- Theorem `unescapeJson_run_slash` and `decodePairs_run_slash`: what the two make
  of a run in front of a slash.
- Theorem `unescapeJson_eq_decodePairs_iff`: the lines on which they agree.
- Theorem `escaped_backslash_before_slash`: a line on which they differ.
-/

namespace AlertProbe

open Foundations

/-- One pass that reads each escape pair once and copies everything else. -/
def decodePairs : CString → CString
  | [] => []
  | [c] => [c]
  | c :: d :: rest =>
      if c = backslash ∧ d = backslash then backslash :: decodePairs rest
      else if c = backslash ∧ d = slash then slash :: decodePairs rest
      else c :: decodePairs (d :: rest)

/-- A run of backslashes of even length, and at least two of them, stands in front of a
slash. -/
def EvenRunBeforeSlash (line : CString) : Prop :=
  ∃ front n back, line = front ++ List.replicate (2 * (n + 1)) backslash ++ slash :: back ∧
    front.getLast? ≠ some backslash

theorem slash_ne_backslash : slash ≠ backslash := by
  decide

/-! ## One run -/

/-- The single pass copies what is no backslash. -/
theorem decodePairs_cons {c : UInt8} (hc : c ≠ backslash) (rest : CString) :
    decodePairs (c :: rest) = c :: decodePairs rest := by
  cases rest with
  | nil => rfl
  | cons d rest => simp [decodePairs, hc]

/-- The single pass halves a run of backslashes. -/
theorem decodePairs_run (n : Nat) (line : CString) :
    decodePairs (List.replicate (2 * n) backslash ++ line) =
      List.replicate n backslash ++ decodePairs line := by
  induction n with
  | zero => rfl
  | succ n ih =>
      have hgrow : List.replicate (2 * (n + 1)) backslash =
          backslash :: backslash :: List.replicate (2 * n) backslash := rfl
      rw [hgrow, List.cons_append, List.cons_append, decodePairs, if_pos ⟨rfl, rfl⟩, ih]
      rfl

/-- The first substitution copies what is no backslash. -/
theorem doubleBackslash_cons {c : UInt8} (hc : c ≠ backslash) (rest : CString) :
    doubleBackslash.apply (c :: rest) = c :: doubleBackslash.apply rest := by
  apply Substitution.apply_cons
  simp [doubleBackslash, Ne.symm hc]

/-- The first substitution halves a run of backslashes. -/
theorem doubleBackslash_run (n : Nat) (line : CString) :
    doubleBackslash.apply (List.replicate (2 * n) backslash ++ line) =
      List.replicate n backslash ++ doubleBackslash.apply line := by
  induction n with
  | zero => rfl
  | succ n ih =>
      have hgrow : List.replicate (2 * (n + 1)) backslash ++ line =
          doubleBackslash.pattern ++ (List.replicate (2 * n) backslash ++ line) := rfl
      rw [hgrow, Substitution.apply_match, ih]
      rfl

/-- The first substitution keeps a backslash that has no second one behind it. -/
theorem doubleBackslash_backslash {line : CString} (hline : line.head? ≠ some backslash) :
    doubleBackslash.apply (backslash :: line) = backslash :: doubleBackslash.apply line := by
  apply Substitution.apply_cons
  cases line with
  | nil => simp [doubleBackslash]
  | cons c line =>
      have hc : backslash ≠ c := by
        rintro rfl
        exact hline rfl
      simp [doubleBackslash, hc]

/-- The second substitution copies what is no backslash. -/
theorem escapedSlash_cons {c : UInt8} (hc : c ≠ backslash) (rest : CString) :
    escapedSlash.apply (c :: rest) = c :: escapedSlash.apply rest := by
  apply Substitution.apply_cons
  simp [escapedSlash, Ne.symm hc]

/-- The second substitution copies a run of backslashes that no slash follows. -/
theorem escapedSlash_run (n : Nat) {line : CString} (hline : line.head? ≠ some slash) :
    escapedSlash.apply (List.replicate n backslash ++ line) =
      List.replicate n backslash ++ escapedSlash.apply line := by
  induction n with
  | zero => rfl
  | succ n ih =>
      have hcopy : ¬ escapedSlash.pattern <+:
          backslash :: (List.replicate n backslash ++ line) := by
        cases n with
        | zero =>
            cases line with
            | nil => simp [escapedSlash]
            | cons c line =>
                have hc : slash ≠ c := by
                  rintro rfl
                  exact hline rfl
                simp [escapedSlash, hc]
        | succ n => simp [escapedSlash, List.replicate_succ, slash_ne_backslash]
      rw [List.replicate_succ, List.cons_append, Substitution.apply_cons _ hcopy, ih,
        List.cons_append]

/-- In front of a slash it takes the last backslash of the run away. -/
theorem escapedSlash_run_slash (n : Nat) (rest : CString) :
    escapedSlash.apply (List.replicate n backslash ++ slash :: rest) =
      List.replicate (n - 1) backslash ++ slash :: escapedSlash.apply rest := by
  cases n with
  | zero => exact escapedSlash_cons slash_ne_backslash rest
  | succ n =>
      have hsplit : List.replicate (n + 1) backslash ++ slash :: rest =
          List.replicate n backslash ++ (escapedSlash.pattern ++ rest) := by
        rw [List.replicate_succ', List.append_assoc]
        rfl
      have hhead : (escapedSlash.pattern ++ rest).head? ≠ some slash := by
        simp [escapedSlash, Ne.symm slash_ne_backslash]
      rw [hsplit, escapedSlash_run n hhead, Substitution.apply_match]
      rfl

/-! ## A run and the symbol behind it -/

/-- Half the length of a run, rounded up: the backslashes that are left of a run without a
slash behind it. -/
def halfUp (n : Nat) : Nat :=
  (n + 1) / 2

/-- The first substitution on a run and what follows it. -/
theorem doubleBackslash_replicate (n : Nat) {line : CString}
    (hline : line.head? ≠ some backslash) :
    doubleBackslash.apply (List.replicate n backslash ++ line) =
      List.replicate (halfUp n) backslash ++ doubleBackslash.apply line := by
  rcases Nat.even_or_odd' n with ⟨k, rfl | rfl⟩
  · have hhalf : halfUp (2 * k) = k := by unfold halfUp; omega
    rw [doubleBackslash_run, hhalf]
  · have hhalf : halfUp (2 * k + 1) = k + 1 := by unfold halfUp; omega
    rw [List.replicate_add, List.append_assoc, doubleBackslash_run, List.replicate_one,
      List.singleton_append, doubleBackslash_backslash hline, hhalf, List.replicate_succ',
      List.append_assoc]
    rfl

/-- The installer on a run of backslashes at the end of a line. -/
theorem unescapeJson_run_end (n : Nat) :
    unescapeJson (List.replicate n backslash) = List.replicate (halfUp n) backslash := by
  have hempty : ∀ c : UInt8, ([] : CString).head? ≠ some c := by simp
  have hfirst := doubleBackslash_replicate n (hempty backslash)
  have hsecond := escapedSlash_run (halfUp n) (hempty slash)
  simp only [List.append_nil, Substitution.apply_nil] at hfirst hsecond
  rw [unescapeJson, script_cons, script_cons, script_nil, hfirst, hsecond]

/-- The installer on a run in front of a slash. -/
theorem unescapeJson_run_slash (n : Nat) (rest : CString) :
    unescapeJson (List.replicate n backslash ++ slash :: rest) =
      List.replicate (halfUp n - 1) backslash ++ slash :: unescapeJson rest := by
  simp only [unescapeJson, script_cons, script_nil]
  rw [doubleBackslash_replicate n (by simpa using slash_ne_backslash),
    doubleBackslash_cons slash_ne_backslash, escapedSlash_run_slash]

/-- The installer on a run in front of another symbol. -/
theorem unescapeJson_run_cons (n : Nat) {c : UInt8} (hc : c ≠ backslash) (hslash : c ≠ slash)
    (rest : CString) :
    unescapeJson (List.replicate n backslash ++ c :: rest) =
      List.replicate (halfUp n) backslash ++ c :: unescapeJson rest := by
  simp only [unescapeJson, script_cons, script_nil]
  rw [doubleBackslash_replicate n (by simpa using hc), doubleBackslash_cons hc,
    escapedSlash_run _ (by simpa using hslash), escapedSlash_cons hc]

/-- The single pass on a run of backslashes at the end of a line. -/
theorem decodePairs_run_end (n : Nat) :
    decodePairs (List.replicate n backslash) = List.replicate (halfUp n) backslash := by
  rcases Nat.even_or_odd' n with ⟨k, rfl | rfl⟩
  · have hhalf : halfUp (2 * k) = k := by unfold halfUp; omega
    have heven := decodePairs_run k []
    rw [List.append_nil] at heven
    rw [heven, hhalf, decodePairs, List.append_nil]
  · have hhalf : halfUp (2 * k + 1) = k + 1 := by unfold halfUp; omega
    rw [List.replicate_add, decodePairs_run, List.replicate_one, hhalf, List.replicate_succ']
    rfl

/-- The single pass on a run in front of a slash. -/
theorem decodePairs_run_slash (n : Nat) (rest : CString) :
    decodePairs (List.replicate n backslash ++ slash :: rest) =
      List.replicate (n / 2) backslash ++ slash :: decodePairs rest := by
  rcases Nat.even_or_odd' n with ⟨k, rfl | rfl⟩
  · have hhalf : 2 * k / 2 = k := by omega
    rw [decodePairs_run, decodePairs_cons slash_ne_backslash, hhalf]
  · have hhalf : (2 * k + 1) / 2 = k := by omega
    have hpair : decodePairs (backslash :: slash :: rest) = slash :: decodePairs rest := by
      rw [decodePairs, if_neg (fun h => slash_ne_backslash h.2), if_pos ⟨rfl, rfl⟩]
    rw [List.replicate_add, List.append_assoc, decodePairs_run, List.replicate_one,
      List.singleton_append, hpair, hhalf]

/-- The single pass on a run in front of another symbol. -/
theorem decodePairs_run_cons (n : Nat) {c : UInt8} (hc : c ≠ backslash) (hslash : c ≠ slash)
    (rest : CString) :
    decodePairs (List.replicate n backslash ++ c :: rest) =
      List.replicate (halfUp n) backslash ++ c :: decodePairs rest := by
  rcases Nat.even_or_odd' n with ⟨k, rfl | rfl⟩
  · have hhalf : halfUp (2 * k) = k := by unfold halfUp; omega
    rw [decodePairs_run, decodePairs_cons hc, hhalf]
  · have hhalf : halfUp (2 * k + 1) = k + 1 := by unfold halfUp; omega
    have hcopy : decodePairs (backslash :: c :: rest) = backslash :: c :: decodePairs rest := by
      rw [decodePairs, if_neg (fun h => hc h.2), if_neg (fun h => hslash h.2),
        decodePairs_cons hc]
    rw [List.replicate_add, List.append_assoc, decodePairs_run, List.replicate_one,
      List.singleton_append, hcopy, hhalf, List.replicate_succ', List.append_assoc]
    rfl

/-! ## Where the two agree -/

/-- A run at the end of a line stands in front of no slash. -/
theorem not_evenRun_replicate (n : Nat) : ¬ EvenRunBeforeSlash (List.replicate n backslash) := by
  rintro ⟨front, m, back, hline, _⟩
  have hslash : slash ∈ List.replicate n backslash := by
    rw [hline]
    simp
  exact slash_ne_backslash (List.eq_of_mem_replicate hslash)

/-- A line has such a run at its start, or behind the symbol that ends its first run. -/
theorem evenRun_append_cons {n : Nat} {c : UInt8} (hc : c ≠ backslash) (rest : CString) :
    EvenRunBeforeSlash (List.replicate n backslash ++ c :: rest) ↔
      (c = slash ∧ n ≠ 0 ∧ n % 2 = 0) ∨ EvenRunBeforeSlash rest := by
  constructor
  · rintro ⟨front, m, back, hline, hfront⟩
    rw [List.append_assoc] at hline
    rcases List.append_eq_append_iff.mp hline with ⟨behind, rfl, hrest⟩ | ⟨behind, hrun, hrest⟩
    · cases behind with
      | nil =>
          -- the run in question would start right at a symbol that is no backslash
          rw [List.nil_append] at hrest
          exact absurd (List.cons.inj hrest).1 hc
      | cons d behind =>
          rw [List.cons_append, List.cons.injEq] at hrest
          refine Or.inr ⟨behind, m, back, by rw [List.append_assoc]; exact hrest.2, ?_⟩
          intro hlast
          apply hfront
          rw [List.getLast?_append, List.getLast?_cons, hlast]
          rfl
    · -- the run starts inside the first one, so it is the first one
      have hnil : front = [] := by
        by_contra hne
        have hlast : front.getLast hne = backslash := by
          apply List.eq_of_mem_replicate (n := n)
          rw [hrun]
          exact List.mem_append_left _ (List.getLast_mem hne)
        exact hfront (by rw [List.getLast?_eq_some_getLast hne, hlast])
      subst hnil
      rw [List.nil_append] at hline
      obtain ⟨rfl, rfl, -⟩ := (replicate_append_cons_inj hc slash_ne_backslash).mp hline
      exact Or.inl ⟨rfl, by omega, by omega⟩
  · rintro (⟨rfl, hpos, heven⟩ | ⟨front, m, back, rfl, hfront⟩)
    · refine ⟨[], n / 2 - 1, rest, ?_, by simp⟩
      have hn : 2 * (n / 2 - 1 + 1) = n := by omega
      rw [hn, List.nil_append]
    · refine ⟨List.replicate n backslash ++ c :: front, m, back, by simp, ?_⟩
      intro hlast
      rw [List.getLast?_append, List.getLast?_cons] at hlast
      cases hfront' : front.getLast? with
      | none =>
          rw [hfront'] at hlast
          exact hc (Option.some.inj hlast)
      | some d =>
          rw [hfront'] at hlast
          exact hfront (hfront'.trans hlast)

/-- The installer's two substitutions decode a line as the single pass does, exactly when no run
of backslashes of even length, other than zero, stands in front of a slash. -/
theorem unescapeJson_eq_decodePairs_iff (line : CString) :
    unescapeJson line = decodePairs line ↔ ¬ EvenRunBeforeSlash line := by
  induction line using runsInduction (a := backslash) with
  | last n =>
      rw [unescapeJson_run_end, decodePairs_run_end]
      exact iff_of_true rfl (not_evenRun_replicate n)
  | run n c rest hc ih =>
      rw [evenRun_append_cons hc, not_or, ← ih]
      by_cases hslash : c = slash
      · subst hslash
        rw [unescapeJson_run_slash, decodePairs_run_slash, replicate_append_cons_inj hc hc]
        have hlength : halfUp n - 1 = n / 2 ↔ ¬ (n ≠ 0 ∧ n % 2 = 0) := by
          unfold halfUp
          omega
        rw [hlength]
        simp only [true_and]
      · rw [unescapeJson_run_cons n hc hslash, decodePairs_run_cons n hc hslash,
          replicate_append_cons_inj hc hc]
        simp [hslash]

/-- An escaped backslash in front of a plain slash is lost. -/
theorem escaped_backslash_before_slash :
    unescapeJson (ascii "\\\\/") ≠ decodePairs (ascii "\\\\/") ∧
      unescapeJson (ascii "\\\\/") = ascii "/" ∧ decodePairs (ascii "\\\\/") = ascii "\\/" := by
  decide

end AlertProbe
