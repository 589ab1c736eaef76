import AlertProbe.Foundations.CText

/-!
# Text in the shell

What the Debian shell `dash` does to text: its builtin `echo`, which interprets
escape sequences in its arguments, command substitution, the fields of an
unquoted variable and the builtin `read`.  The scanner of `echo` is a machine
with one state for each place inside an escape sequence.

Main results:

- Theorem `echo_of_escapeFree`: `echo` prints its arguments as they are when no
  argument has a sequence that it interprets.
- Theorem `echo_weight_lt`: interpreting a sequence makes a text lighter.
- Theorem `commandSubstitution_newline`: one more newline at the end of an output
  makes no difference.
- Theorem `fields_append_cons`: the fields on both sides of a separator.
- Theorem `readLines_line`: `read` delivers a plain line less the white space at its
  ends, which makes no field.
- Theorem `Unjoined.fields_readLines`: the fields of the lines that `read` delivers for a
  text in which it joins no lines.
- Theorem `readLine_eq_self_iff`: the lines that `read` leaves as they are.
-/

namespace Foundations

/-! ## The builtin echo -/

/-- The digits `0` to `7`. -/
def isOctal (c : UInt8) : Bool :=
  48 ≤ c.toNat && c.toNat ≤ 55

/-- The byte that an escape sequence of two characters stands for. -/
def escapeCode (c : UInt8) : Option UInt8 :=
  [(backslash, backslash), (charByte 'a', 7), (charByte 'b', 8), (charByte 'e', 27),
    (charByte 'f', 12), (charByte 'n', 10), (charByte 'r', 13), (charByte 't', 9),
    (charByte 'v', 11)].lookup c

/-- The characters that `echo` interprets behind a backslash. -/
def interpreted (c : UInt8) : Bool :=
  c == charByte 'c' || isOctal c || (escapeCode c).isSome

/-- Where the scanner stands: outside of a sequence, behind a backslash, in an octal number with
its value and the digits it may still have, or behind `\c`. -/
inductive EchoState where
  | plain
  | escape
  | octal (value left : Nat)
  | stopped
deriving DecidableEq, Repr

namespace EchoState

/-- The bytes printed when the scanner comes to one more character, and where it stands then. -/
def step : EchoState → UInt8 → CString × EchoState
  | plain, c => if c = backslash then ([], escape) else ([c], plain)
  | escape, c =>
      if c = charByte 'c' then ([], stopped)
      else if c = charByte '0' then ([], octal 0 3)
      else if isOctal c then ([], octal (c.toNat - 48) 2)
      else
        match escapeCode c with
        | some b => ([b], plain)
        | none => ([backslash, c], plain)
  | octal value left, c =>
      if 0 < left ∧ isOctal c then ([], octal (8 * value + (c.toNat - 48)) (left - 1))
      else if c = backslash then ([UInt8.ofNat value], escape)
      else ([UInt8.ofNat value, c], plain)
  | stopped, _ => ([], stopped)

/-- The bytes printed when the argument ends. -/
def finish : EchoState → CString
  | plain => []
  | escape => [backslash]
  | octal value _ => [UInt8.ofNat value]
  | stopped => []

/-- The text printed for the rest of an argument, and whether `\c` was in it. -/
def scan : EchoState → CString → CString × Bool
  | s, [] => (s.finish, s = stopped)
  | s, c :: rest => ((s.step c).1 ++ ((s.step c).2.scan rest).1, ((s.step c).2.scan rest).2)

end EchoState

/-- Print arguments; `\c` stops everything behind it. -/
def echoArguments (final : CString) : List CString → CString
  | [] => final
  | text :: rest =>
      if (EchoState.plain.scan text).2 then (EchoState.plain.scan text).1
      else (EchoState.plain.scan text).1 ++
        if rest = [] then final else blank :: echoArguments final rest

/-- `echo`, with or without the option `-n`. -/
def echo : List CString → CString
  | [] => [newline]
  | text :: rest =>
      if text = ascii "-n" then echoArguments [] rest
      else echoArguments [newline] (text :: rest)

/-- No backslash has a character behind it that `echo` interprets. -/
def EscapeFree (text : CString) : Prop :=
  text.IsChain fun c d => ¬ (c = backslash ∧ interpreted d = true)

instance (text : CString) : Decidable (EscapeFree text) :=
  inferInstanceAs (Decidable (text.IsChain _))

/-! ## Texts without sequences -/

/-- A backslash is interpreted behind a backslash. -/
theorem interpreted_backslash : interpreted backslash = true := by
  decide

/-- The scanner keeps a backslash with a character that it does not interpret. -/
theorem EchoState.step_escape {c : UInt8} (hc : interpreted c = false) :
    EchoState.escape.step c = ([backslash, c], .plain) := by
  simp only [interpreted, Bool.or_eq_false_iff, beq_eq_false_iff_ne,
    Option.isSome_eq_false_iff, Option.isNone_iff_eq_none] at hc
  obtain ⟨⟨hstop, hoctal⟩, hcode⟩ := hc
  have hzero : c ≠ charByte '0' := by
    rintro rfl
    exact absurd hoctal (by decide)
  simp [step, hstop, hzero, hoctal, hcode]

/-- A character that starts no sequence is copied. -/
theorem EchoState.scan_cons {c : UInt8} (hc : c ≠ backslash) (rest : CString) :
    EchoState.plain.scan (c :: rest) =
      (c :: (EchoState.plain.scan rest).1, (EchoState.plain.scan rest).2) := by
  rw [scan, step, if_neg hc]
  rfl

/-- A backslash is held back. -/
theorem EchoState.scan_backslash (rest : CString) :
    EchoState.plain.scan (backslash :: rest) = EchoState.escape.scan rest :=
  rfl

/-- A backslash is copied with a character that is not interpreted. -/
theorem EchoState.scan_escape {c : UInt8} (hc : interpreted c = false) (rest : CString) :
    EchoState.escape.scan (c :: rest) =
      (backslash :: c :: (EchoState.plain.scan rest).1, (EchoState.plain.scan rest).2) := by
  rw [scan, step_escape hc]
  rfl

/-- The scanner copies a text without sequences. -/
theorem EchoState.scan_of_escapeFree {text : CString} (h : EscapeFree text) :
    EchoState.plain.scan text = (text, false) := by
  induction text using List.twoStepInduction with
  | nil => rfl
  | singleton c =>
      by_cases hc : c = backslash
      · rw [hc]
        rfl
      · rw [scan_cons hc]
        rfl
  | cons_cons c d text ih ihd =>
      obtain ⟨hpair, hrest⟩ := List.isChain_cons_cons.mp h
      by_cases hc : c = backslash
      · -- the character behind the backslash is copied with it
        have hd : interpreted d = false := by
          rw [← Bool.not_eq_true]
          exact fun hd => hpair ⟨hc, hd⟩
        rw [hc, scan_backslash, scan_escape hd, ih (List.IsChain.tail hrest)]
      · rw [scan_cons hc, ihd d hrest]

/-- A text without backslashes has no sequence. -/
theorem escapeFree_of_not_mem {text : CString} (h : backslash ∉ text) : EscapeFree text := by
  induction text with
  | nil => exact List.IsChain.nil
  | cons c text ih =>
      have hc : c ≠ backslash := fun hc => h (by simp [hc])
      refine List.isChain_cons.mpr ⟨fun d _ hpair => hc hpair.1, ih fun hmem => ?_⟩
      exact h (List.mem_cons_of_mem c hmem)

/-- Arguments without sequences are printed as they are. -/
theorem echoArguments_of_escapeFree (final : CString) {arguments : List CString}
    (h : ∀ text ∈ arguments, EscapeFree text) :
    echoArguments final arguments = [blank].intercalate arguments ++ final := by
  induction arguments with
  | nil => rfl
  | cons text rest ih =>
      have hscan := EchoState.scan_of_escapeFree (h text List.mem_cons_self)
      have hrest := ih fun t ht => h t (List.mem_cons_of_mem text ht)
      rw [echoArguments, hscan, hrest]
      cases rest with
      | nil => simp
      | cons next rest => simp [List.intercalate_cons_cons]

/-- Where no argument has a sequence and the first is not `-n`, `echo` prints its arguments. -/
theorem echo_of_escapeFree {arguments : List CString}
    (h : ∀ text ∈ arguments, EscapeFree text) (hn : arguments.head? ≠ some (ascii "-n")) :
    echo arguments = [blank].intercalate arguments ++ [newline] := by
  cases arguments with
  | nil => rfl
  | cons text rest =>
      have hoption : text ≠ ascii "-n" := by
        rintro rfl
        exact hn rfl
      rw [echo, if_neg hoption, echoArguments_of_escapeFree _ h]

/-! ## The weight of a text -/

section Weight

variable {w : UInt8 → Nat}

/-- Total weight of the bytes of a text. -/
def weight (w : UInt8 → Nat) (text : CString) : Nat :=
  (text.map w).sum

@[simp]
theorem weight_nil : weight w [] = 0 :=
  rfl

@[simp]
theorem weight_cons (b : UInt8) (text : CString) : weight w (b :: text) = w b + weight w text :=
  rfl

@[simp]
theorem weight_append (front back : CString) :
    weight w (front ++ back) = weight w front + weight w back := by
  simp [weight]

/-- A part of a text with the weight of the text is the text. -/
theorem eq_of_sublist_of_weight (hpos : ∀ b, 0 < w b) {part text : CString}
    (h : part.Sublist text) (hweight : weight w text ≤ weight w part) : part = text := by
  have hle : ∀ {part text : CString}, part.Sublist text → weight w part ≤ weight w text :=
    fun h => (h.map w).sum_le_sum fun _ _ => Nat.zero_le _
  induction h with
  | slnil => rfl
  | cons b hrest ih =>
      have hb := hpos b
      have hless := hle hrest
      rw [weight_cons] at hweight
      omega
  | cons_cons b hrest ih =>
      rw [weight_cons, weight_cons] at hweight
      rw [ih (by omega)]

/-- What the scanner may still print for the characters that it holds back. -/
def EchoState.pending (w : UInt8 → Nat) : EchoState → Nat
  | plain => 0
  | escape => w backslash
  | octal _ _ => w backslash
  | stopped => 0

variable (hmax : ∀ b, w b ≤ w backslash)

include hmax

/-- One step prints and holds back no more than it has read. -/
theorem EchoState.step_weight_le (s : EchoState) (c : UInt8) :
    weight w (s.step c).1 + (s.step c).2.pending w ≤ s.pending w + w c := by
  cases s with
  | plain =>
      by_cases hc : c = backslash <;> simp [step, hc, pending]
  | escape =>
      simp only [step]
      split_ifs
      · simp [pending]
      · simp [pending]
      · simp [pending]
      · cases hcode : escapeCode c with
        | some b =>
            have hb := hmax b
            simp only [weight_cons, weight_nil, pending]
            omega
        | none => simp [pending]
  | octal value left =>
      have hvalue := hmax (UInt8.ofNat value)
      simp only [step]
      split_ifs with hdigit hc
      · simp [pending]
      · simp only [weight_cons, weight_nil, pending, hc]
        omega
      · simp only [weight_cons, weight_nil, pending]
        omega
  | stopped => simp [step, pending]

/-- What the scanner prints weighs no more than what it reads. -/
theorem EchoState.scan_weight_le (s : EchoState) (text : CString) :
    weight w (s.scan text).1 ≤ s.pending w + weight w text := by
  induction text generalizing s with
  | nil =>
      cases s with
      | octal value left =>
          have hvalue := hmax (UInt8.ofNat value)
          simpa [scan, finish, pending] using hvalue
      | _ => simp [scan, finish, pending]
  | cons c rest ih =>
      have hstep := step_weight_le hmax s c
      have hrest := ih (s.step c).2
      rw [scan, weight_append, weight_cons]
      omega

/-- A sequence that is interpreted loses weight. -/
theorem EchoState.step_weight_lt (hpos : ∀ b, 0 < w b) {c : UInt8}
    (hc : interpreted c = true) :
    weight w (EchoState.escape.step c).1 + (EchoState.escape.step c).2.pending w <
      w backslash + w c := by
  have hw := hpos c
  have hslash := hpos backslash
  simp only [step]
  split_ifs with hstop hzero hoctal
  · simp only [weight_nil, pending]
    omega
  · simp only [weight_nil, pending]
    omega
  · simp only [weight_nil, pending]
    omega
  · cases hcode : escapeCode c with
    | some b =>
        have hb := hmax b
        simp only [weight_cons, weight_nil, pending]
        omega
    | none => simp [interpreted, hstop, hoctal, hcode] at hc

/-- A text with a sequence that `echo` interprets is printed as a lighter one. -/
theorem echo_weight_lt (hpos : ∀ b, 0 < w b) {text : CString} (h : ¬ EscapeFree text) :
    weight w (EchoState.plain.scan text).1 < weight w text := by
  induction text using List.twoStepInduction with
  | nil => exact absurd List.IsChain.nil h
  | singleton c => exact absurd (List.IsChain.singleton c) h
  | cons_cons c d text ih ihd =>
      by_cases hc : c = backslash
      · subst hc
        by_cases hd : interpreted d = true
        · have hstep := EchoState.step_weight_lt hmax hpos hd
          have hrest := EchoState.scan_weight_le hmax (EchoState.escape.step d).2 text
          rw [EchoState.scan_backslash, EchoState.scan, weight_append, weight_cons, weight_cons]
          omega
        · rw [Bool.not_eq_true] at hd
          have hslash : d ≠ backslash := by
            rintro rfl
            rw [interpreted_backslash] at hd
            cases hd
          have htext : ¬ EscapeFree text := by
            intro htext
            apply h
            refine List.isChain_cons_cons.mpr ⟨by simp [hd], List.isChain_cons.mpr ⟨?_, htext⟩⟩
            exact fun e _ hpair => hslash hpair.1
          have hlt := ih htext
          rw [EchoState.scan_backslash, EchoState.scan_escape hd]
          simp only [weight_cons]
          omega
      · have hrest : ¬ EscapeFree (d :: text) := by
          intro hrest
          exact h (List.isChain_cons_cons.mpr ⟨fun hpair => hc hpair.1, hrest⟩)
        have hlt := ihd d hrest
        rw [EchoState.scan_cons hc, weight_cons, weight_cons]
        omega

end Weight

/-! ## Command substitution -/

/-- `$(...)` of an output: NULs and the newlines at the end are dropped. -/
def commandSubstitution (output : CString) : CString :=
  (output.filter (· != 0)).rdropWhile (· == newline)

/-- One more newline at the end makes no difference. -/
theorem commandSubstitution_newline (output : CString) :
    commandSubstitution (output ++ [newline]) = commandSubstitution output := by
  have hkeep : [newline].filter (· != 0) = [newline] := rfl
  rw [commandSubstitution, List.filter_append, hkeep, List.rdropWhile_concat_pos _ _ _ (by simp)]
  rfl

/-- The substituted text is no longer than the output. -/
theorem commandSubstitution_length_le (output : CString) :
    (commandSubstitution output).length ≤ output.length :=
  (List.rdropWhile_prefix _ _).length_le.trans (List.length_filter_le _ _)

/-- A text without NULs and without a newline at its end is substituted as it is. -/
theorem commandSubstitution_of_getLast {output : CString} (hnul : 0 ∉ output)
    (hend : ∀ hne : output ≠ [], output.getLast hne ≠ newline) :
    commandSubstitution output = output := by
  have hfilter : output.filter (· != 0) = output := by
    rw [List.filter_eq_self]
    intro b hb
    rw [bne_iff_ne]
    rintro rfl
    exact hnul hb
  rw [commandSubstitution, hfilter, List.rdropWhile_eq_self_iff]
  intro hne hlast
  rw [beq_iff_eq] at hlast
  exact hend hne hlast

/-- A text without NULs and newlines is substituted as it is. -/
theorem commandSubstitution_eq_self {output : CString} (hnul : 0 ∉ output)
    (hline : newline ∉ output) : commandSubstitution output = output :=
  commandSubstitution_of_getLast hnul fun hne hlast => hline (hlast ▸ List.getLast_mem hne)

/-- Lines are substituted by one text exactly when the first line is the text and nothing stands
on the others. -/
theorem commandSubstitution_lines {lines : List CString} {text : CString}
    (hlines : ∀ line ∈ lines, 0 ∉ line ∧ newline ∉ line) (hne : text ≠ [])
    (htext : newline ∉ text) :
    commandSubstitution (lines.flatMap fun line => line ++ [newline]) = text ↔
      ∃ rest, lines = text :: rest ∧ ∀ line ∈ rest, line = [] := by
  -- the induction is on the last line, since the newlines at the end are dropped
  induction lines using List.reverseRecOn with
  | nil =>
      have hnil : commandSubstitution [] = [] := rfl
      rw [List.flatMap_nil, hnil]
      simp [Ne.symm hne]
  | append_singleton lines last ih =>
      have hih := ih fun line hline => hlines line (List.mem_append_left _ hline)
      have hlast := hlines last (List.mem_append_right _ (List.mem_singleton_self last))
      rw [List.flatMap_append, List.flatMap_singleton, ← List.append_assoc,
        commandSubstitution_newline]
      by_cases hempty : last = []
      · rw [hempty, List.append_nil, hih]
        constructor
        · rintro ⟨rest, rfl, hrest⟩
          refine ⟨rest ++ [[]], rfl, ?_⟩
          simpa [or_imp, forall_and] using hrest
        · rintro ⟨rest, hsplit, hrest⟩
          cases lines with
          | nil =>
              rw [List.nil_append, List.cons.injEq] at hsplit
              exact absurd hsplit.1.symm hne
          | cons first lines =>
              rw [List.cons_append, List.cons.injEq] at hsplit
              refine ⟨lines, by rw [hsplit.1], fun line hline => hrest line ?_⟩
              rw [← hsplit.2]
              exact List.mem_append_left _ hline
      · have hself : commandSubstitution ((lines.flatMap fun line => line ++ [newline]) ++ last) =
            (lines.flatMap fun line => line ++ [newline]) ++ last := by
          have hnul : 0 ∉ (lines.flatMap fun line => line ++ [newline]) ++ last := by
            intro hb
            rcases List.mem_append.mp hb with hb | hb
            · obtain ⟨line, hline, hmem⟩ := List.mem_flatMap.mp hb
              rcases List.mem_append.mp hmem with hmem | hmem
              · exact (hlines line (List.mem_append_left _ hline)).1 hmem
              · exact absurd (List.mem_singleton.mp hmem) (by decide)
            · exact hlast.1 hb
          refine commandSubstitution_of_getLast hnul fun _ hnewline => ?_
          rw [List.getLast_append_of_ne_nil _ hempty] at hnewline
          exact hlast.2 (hnewline ▸ List.getLast_mem hempty)
        rw [hself]
        constructor
        · intro heq
          cases lines with
          | nil => exact ⟨[], by simpa using heq, by simp⟩
          | cons first lines =>
              exfalso
              apply htext
              rw [← heq]
              simp
        · rintro ⟨rest, hsplit, hrest⟩
          cases lines with
          | nil =>
              rw [List.nil_append, List.cons.injEq] at hsplit
              simpa using hsplit.1
          | cons first lines =>
              rw [List.cons_append, List.cons.injEq] at hsplit
              exact absurd (hrest last (by simp [← hsplit.2])) hempty

/-! ## Fields -/

/-- Blank, tab and newline, the default value of `IFS`. -/
def fieldSeparator (b : UInt8) : Bool :=
  b == blank || b == 9 || b == newline

/-- The fields of an unquoted variable, before pathname expansion. -/
def fields (text : CString) : List CString :=
  (text.splitOnP fieldSeparator).filter (· != [])

@[simp]
theorem fields_nil : fields [] = [] :=
  rfl

/-- A separator ends a field. -/
theorem fields_append_cons (front back : CString) {b : UInt8} (hb : fieldSeparator b = true) :
    fields (front ++ b :: back) = fields front ++ fields back := by
  rw [fields, List.splitOnP_append_cons _ _ hb, List.filter_append]
  rfl

/-- A separator in front of a text makes no field. -/
theorem fields_cons {b : UInt8} (hb : fieldSeparator b = true) (text : CString) :
    fields (b :: text) = fields text :=
  fields_append_cons [] text hb

/-- A separator behind a text makes no field. -/
theorem fields_concat (text : CString) {b : UInt8} (hb : fieldSeparator b = true) :
    fields (text ++ [b]) = fields text := by
  rw [fields_append_cons text [] hb, fields_nil, List.append_nil]

/-- A text without separators is one field. -/
theorem fields_word {text : CString} (hne : text ≠ [])
    (h : ∀ b ∈ text, fieldSeparator b = false) : fields text = [text] := by
  rw [fields, List.splitOnP_eq_singleton h]
  simp [hne]

/-- A field has a byte, and no separators. -/
theorem mem_fields {text word : CString} (h : word ∈ fields text) :
    word ≠ [] ∧ ∀ b ∈ word, fieldSeparator b = false := by
  obtain ⟨hpiece, hne⟩ := List.mem_filter.mp h
  refine ⟨by simpa using hne, ?_⟩
  clear h hne
  induction text generalizing word with
  | nil =>
      rw [List.splitOnP_nil, List.mem_singleton] at hpiece
      simp [hpiece]
  | cons c text ih =>
      rw [List.splitOnP_cons_eq_if_modifyHead] at hpiece
      split at hpiece
      · rcases List.mem_cons.mp hpiece with rfl | hmem
        · simp
        · exact ih hmem
      · rename_i hc
        obtain ⟨first, pieces, hpieces⟩ :=
          List.exists_cons_of_ne_nil (List.splitOnP_ne_nil fieldSeparator text)
        rw [hpieces, List.modifyHead_cons] at hpiece
        rcases List.mem_cons.mp hpiece with rfl | hmem
        · rw [List.forall_mem_cons]
          exact ⟨by simpa using hc, ih (hpieces ▸ List.mem_cons_self)⟩
        · exact ih (hpieces ▸ List.mem_cons_of_mem first hmem)

/-- The fields are the text without its separators. -/
theorem flatten_fields (text : CString) :
    (fields text).flatten = text.filter fun b => !fieldSeparator b := by
  have hkeep : ∀ pieces : List CString, (pieces.filter (· != [])).flatten = pieces.flatten := by
    intro pieces
    induction pieces with
    | nil => rfl
    | cons piece pieces ih =>
        cases piece with
        | nil => exact ih
        | cons b piece => rw [List.filter_cons_of_pos (by simp), List.flatten_cons, ih,
            List.flatten_cons]
  rw [fields, hkeep]
  induction text with
  | nil => rfl
  | cons c text ih =>
      rw [List.splitOnP_cons_eq_if_modifyHead]
      by_cases hc : fieldSeparator c = true
      · rw [if_pos hc, List.flatten_cons, ih, List.nil_append,
          List.filter_cons_of_neg (by simp [hc])]
      · obtain ⟨first, pieces, hpieces⟩ :=
          List.exists_cons_of_ne_nil (List.splitOnP_ne_nil fieldSeparator text)
        rw [hpieces] at ih
        rw [if_neg hc, hpieces, List.modifyHead_cons, List.flatten_cons, List.cons_append,
          ← List.flatten_cons, ih, List.filter_cons_of_pos (by simp [hc])]

/-- The bytes of a field stand in the text. -/
theorem mem_of_mem_fields {text word : CString} {b : UInt8} (hword : word ∈ fields text)
    (hb : b ∈ word) : b ∈ text := by
  have hmem : b ∈ (fields text).flatten := List.mem_flatten.mpr ⟨word, hword, hb⟩
  rw [flatten_fields] at hmem
  exact (List.mem_filter.mp hmem).1

/-- How often a byte stands in words with a separator between them. -/
theorem count_intercalate {x b : UInt8} (hb : b ≠ x) (words : List CString) :
    ([x].intercalate words).count b = words.flatten.count b := by
  induction words with
  | nil => rfl
  | cons word words ih =>
      cases words with
      | nil => simp
      | cons next words =>
          have hx : ([x] : CString).count b = 0 := List.count_eq_zero.mpr (by simpa using hb)
          rw [List.intercalate_cons_cons, List.count_append, List.count_append, ih, hx,
            Nat.add_zero, ← List.count_append, ← List.flatten_cons]

/-- The bytes of words with a separator between them. -/
theorem mem_intercalate {x b : UInt8} {words : List CString} (hb : b ∈ [x].intercalate words) :
    b = x ∨ ∃ word ∈ words, b ∈ word := by
  induction words with
  | nil => cases hb
  | cons word words ih =>
      cases words with
      | nil => exact Or.inr ⟨word, List.mem_cons_self, by simpa using hb⟩
      | cons next words =>
          rw [List.intercalate_cons_cons, List.mem_append, List.mem_append,
            List.mem_singleton] at hb
          rcases hb with (hword | hx) | hrest
          · exact Or.inr ⟨word, List.mem_cons_self, hword⟩
          · exact Or.inl hx
          · rcases ih hrest with hx | ⟨w, hw, hb⟩
            · exact Or.inl hx
            · exact Or.inr ⟨w, List.mem_cons_of_mem word hw, hb⟩

/-- The bytes of a word stand in the line. -/
theorem mem_intercalate_of_mem {x b : UInt8} {words : List CString} {word : CString}
    (hword : word ∈ words) (hb : b ∈ word) : b ∈ [x].intercalate words := by
  induction words with
  | nil => cases hword
  | cons first words ih =>
      cases words with
      | nil =>
          rw [List.intercalate_singleton, ← List.mem_singleton.mp hword]
          exact hb
      | cons next words =>
          rw [List.intercalate_cons_cons, List.append_assoc, List.mem_append, List.mem_append]
          rcases List.mem_cons.mp hword with rfl | hmem
          · exact Or.inl hb
          · exact Or.inr (Or.inr (ih hmem))

/-- Words with a blank between them are the fields of their line. -/
theorem fields_intercalate {words : List CString}
    (h : ∀ word ∈ words, word ≠ [] ∧ ∀ b ∈ word, fieldSeparator b = false) :
    fields ([blank].intercalate words) = words := by
  induction words with
  | nil => rfl
  | cons word words ih =>
      obtain ⟨hne, hword⟩ := h word List.mem_cons_self
      have hwords := ih fun w hw => h w (List.mem_cons_of_mem word hw)
      cases words with
      | nil => rw [List.intercalate_singleton, fields_word hne hword]
      | cons next words =>
          rw [List.intercalate_cons_cons, List.append_assoc, List.singleton_append,
            fields_append_cons _ _ rfl, hwords, fields_word hne hword, List.singleton_append]

/-- Separators in front of a text make no field. -/
theorem fields_append {front : CString} (h : ∀ b ∈ front, fieldSeparator b = true)
    (text : CString) : fields (front ++ text) = fields text := by
  induction front with
  | nil => rfl
  | cons b front ih =>
      rw [List.cons_append, fields_cons (h b List.mem_cons_self),
        ih fun c hc => h c (List.mem_cons_of_mem b hc)]

/-- The text less the separators at both ends. -/
def trim (text : CString) : CString :=
  (text.dropWhile fieldSeparator).rdropWhile fieldSeparator

/-- The separators at both ends make no field. -/
theorem fields_trim (text : CString) : fields (trim text) = fields text := by
  have hfront : ∀ text : CString, fields (text.dropWhile fieldSeparator) = fields text := by
    intro text
    induction text with
    | nil => rfl
    | cons b text ih =>
        by_cases hb : fieldSeparator b = true
        · rw [List.dropWhile_cons_of_pos hb, fields_cons hb, ih]
        · rw [List.dropWhile_cons_of_neg hb]
  have hback : ∀ text : CString, fields (text.rdropWhile fieldSeparator) = fields text := by
    intro text
    induction text using List.reverseRecOn with
    | nil => rfl
    | append_singleton text b ih =>
        by_cases hb : fieldSeparator b = true
        · rw [List.rdropWhile_concat_pos _ _ _ hb, fields_concat _ hb, ih]
        · rw [List.rdropWhile_concat_neg _ _ _ hb]
  rw [trim, hback, hfront]

/-- Without NULs, a command substitution takes away nothing but ends of fields. -/
theorem fields_commandSubstitution {output : CString} (hnul : 0 ∉ output) :
    fields (commandSubstitution output) = fields output := by
  have hfilter : output.filter (· != 0) = output := by
    rw [List.filter_eq_self]
    intro b hb
    rw [bne_iff_ne]
    rintro rfl
    exact hnul hb
  rw [commandSubstitution, hfilter]
  clear hnul hfilter
  induction output using List.reverseRecOn with
  | nil => rfl
  | append_singleton text b ih =>
      by_cases hb : b = newline
      · rw [hb, List.rdropWhile_concat_pos _ _ _ (by simp), ih, fields_concat _ rfl]
      · rw [List.rdropWhile_concat_neg _ _ _ (by simpa using hb)]

/-- The fields of lines without separators are the lines that are not empty. -/
theorem fields_lines {lines : List CString}
    (h : ∀ line ∈ lines, ∀ b ∈ line, fieldSeparator b = false) :
    fields (lines.flatMap fun line => line ++ [newline]) = lines.filter (· != []) := by
  induction lines with
  | nil => rfl
  | cons line lines ih =>
      have hrest := ih fun l hl => h l (List.mem_cons_of_mem line hl)
      rw [List.flatMap_cons, List.append_assoc, List.singleton_append,
        fields_append_cons _ _ rfl, hrest]
      by_cases hne : line = []
      · simp [hne]
      · rw [fields_word hne (h line List.mem_cons_self)]
        simp [hne]

/-! ## The builtin read -/

/-- Take the bytes of lines, each with a mark that says whether a backslash quotes it.  A
backslash joins a line with the next one, and a line without its newline is not delivered. -/
def readFrom (line : List (UInt8 × Bool)) (quoted : Bool) : CString → List (List (UInt8 × Bool))
  | [] => []
  | b :: rest =>
      if b = 0 then readFrom line quoted rest
      else if quoted then
        if b = newline then readFrom line false rest
        else readFrom (line ++ [(b, true)]) false rest
      else if b = backslash then readFrom line true rest
      else if b = newline then line :: readFrom [] false rest
      else readFrom (line ++ [(b, false)]) false rest

/-- A line less the unquoted separators at both ends. -/
def trimQuoted (line : List (UInt8 × Bool)) : CString :=
  ((line.dropWhile fun b => fieldSeparator b.1 && !b.2).rdropWhile
    fun b => fieldSeparator b.1 && !b.2).map Prod.fst

/-- The values that `while read line` delivers for a text. -/
def readLines (text : CString) : List CString :=
  (readFrom [] false text).map trimQuoted

/-- A line without NUL, backslash and newline. -/
def PlainLine (line : CString) : Prop :=
  ∀ b ∈ line, b ≠ 0 ∧ b ≠ backslash ∧ b ≠ newline

/-- Plain bytes are taken as they are. -/
theorem readFrom_line {line : CString} (h : PlainLine line) (front : List (UInt8 × Bool))
    (rest : CString) :
    readFrom front false (line ++ newline :: rest) =
      (front ++ line.map fun b => (b, false)) :: readFrom [] false rest := by
  induction line generalizing front with
  | nil =>
      have hnul : newline ≠ 0 := by decide
      have hslash : newline ≠ backslash := by decide
      rw [List.nil_append, readFrom, if_neg hnul, if_neg Bool.false_ne_true, if_neg hslash,
        if_pos rfl, List.map_nil, List.append_nil]
  | cons b line ih =>
      obtain ⟨hnul, hslash, hnewline⟩ := h b List.mem_cons_self
      have hline : PlainLine line := fun c hc => h c (List.mem_cons_of_mem b hc)
      rw [List.cons_append, readFrom, if_neg hnul, if_neg Bool.false_ne_true, if_neg hslash,
        if_neg hnewline, ih hline, List.map_cons, List.append_assoc, List.singleton_append]

/-- Of a line without quoted bytes the separators at both ends are dropped. -/
theorem trimQuoted_map (line : CString) :
    trimQuoted (line.map fun b => (b, false)) = trim line := by
  rw [trimQuoted, trim, List.dropWhile_map, List.rdropWhile, ← List.map_reverse,
    List.dropWhile_map, ← List.map_reverse, List.map_map]
  simp only [Function.comp_def, Bool.not_false, Bool.and_true]
  rw [List.map_id', List.rdropWhile]

/-- `read` delivers a plain line. -/
theorem readLines_line {line : CString} (h : PlainLine line) (rest : CString) :
    readLines (line ++ newline :: rest) = trim line :: readLines rest := by
  rw [readLines, readFrom_line h, List.nil_append, List.map_cons, trimQuoted_map]
  rfl

/-- `read` delivers the plain lines of a text. -/
theorem readLines_lines {lines : List CString} (h : ∀ line ∈ lines, PlainLine line) :
    readLines (lines.flatMap fun line => line ++ [newline]) = lines.map trim := by
  induction lines with
  | nil => rfl
  | cons line lines ih =>
      have hline := h line List.mem_cons_self
      have hrest := ih fun l hl => h l (List.mem_cons_of_mem line hl)
      rw [List.flatMap_cons, List.append_assoc, List.singleton_append, readLines_line hline, hrest,
        List.map_cons]

/-! ### Lines that are not joined -/

/-- A line as `read` takes it: a backslash is dropped and keeps the character behind it. -/
def unquoted : CString → CString
  | [] => []
  | [b] => if b = backslash then [] else [b]
  | b :: c :: rest =>
      if b = backslash then c :: unquoted rest else b :: unquoted (c :: rest)

/-- A character that is no backslash is kept. -/
theorem unquoted_cons {b : UInt8} (hb : b ≠ backslash) (line : CString) :
    unquoted (b :: line) = b :: unquoted line := by
  cases line with
  | nil => simp [unquoted, hb]
  | cons c line => rw [unquoted, if_neg hb]

/-- A backslash keeps the character behind it. -/
theorem unquoted_backslash (c : UInt8) (line : CString) :
    unquoted (backslash :: c :: line) = c :: unquoted line := by
  rw [unquoted, if_pos rfl]

/-- What `read` takes of a line are bytes of the line. -/
theorem mem_of_mem_unquoted {line : CString} {b : UInt8} (h : b ∈ unquoted line) : b ∈ line := by
  induction line using List.twoStepInduction with
  | nil => exact h
  | singleton c =>
      rw [unquoted] at h
      split at h
      · cases h
      · exact h
  | cons_cons c d line ih ihd =>
      rw [unquoted] at h
      split at h
      · rcases List.mem_cons.mp h with rfl | hmem
        · exact List.mem_cons_of_mem c List.mem_cons_self
        · exact List.mem_cons_of_mem c (List.mem_cons_of_mem d (ih hmem))
      · rcases List.mem_cons.mp h with rfl | hmem
        · exact List.mem_cons_self
        · exact List.mem_cons_of_mem c (ihd d hmem)

/-- Only backslashes are dropped. -/
theorem count_unquoted {b : UInt8} (hb : b ≠ backslash) (line : CString) :
    (unquoted line).count b = line.count b := by
  have hslash : ∀ line : CString, (backslash :: line).count b = line.count b :=
    fun line => List.count_cons_of_ne (Ne.symm hb)
  induction line using List.twoStepInduction with
  | nil => rfl
  | singleton c =>
      rw [unquoted]
      split
      · rename_i hc
        rw [hc, hslash]
      · rfl
  | cons_cons c d line ih ihd =>
      rw [unquoted]
      split
      · rename_i hc
        rw [hc, hslash, List.count_cons, List.count_cons, ih]
      · rw [List.count_cons, List.count_cons, ihd]

/-- `read` joins no lines of the text and drops nothing but backslashes: there is no NUL in it,
and a character other than a newline stands behind every backslash. -/
inductive Unjoined : CString → Prop where
  | nil : Unjoined []
  | plain {b : UInt8} {rest : CString} (hnul : b ≠ 0) (hslash : b ≠ backslash)
      (hrest : Unjoined rest) : Unjoined (b :: rest)
  | quoted {c : UInt8} {rest : CString} (hnul : c ≠ 0) (hnewline : c ≠ newline)
      (hrest : Unjoined rest) : Unjoined (backslash :: c :: rest)

namespace Unjoined

/-- Such texts are put together. -/
theorem append {front back : CString} (hfront : Unjoined front) (hback : Unjoined back) :
    Unjoined (front ++ back) := by
  induction hfront with
  | nil => exact hback
  | plain hnul hslash _ ih => exact plain hnul hslash ih
  | quoted hnul hnewline _ ih => exact quoted hnul hnewline ih

/-- A text without NULs and backslashes. -/
theorem of_forall {text : CString} (h : ∀ b ∈ text, b ≠ 0 ∧ b ≠ backslash) : Unjoined text := by
  induction text with
  | nil => exact nil
  | cons b text ih =>
      obtain ⟨hnul, hslash⟩ := h b List.mem_cons_self
      exact plain hnul hslash (ih fun c hc => h c (List.mem_cons_of_mem b hc))

/-- There is no NUL in such a text. -/
theorem zero_not_mem {text : CString} (h : Unjoined text) : 0 ∉ text := by
  have hslash : (0 : UInt8) ≠ backslash := by decide
  induction h with
  | nil => exact List.not_mem_nil
  | plain hnul _ _ ih =>
      rw [List.mem_cons, not_or]
      exact ⟨Ne.symm hnul, ih⟩
  | quoted hnul _ _ ih =>
      rw [List.mem_cons, List.mem_cons, not_or, not_or]
      exact ⟨hslash, Ne.symm hnul, ih⟩

/-- The bytes that `read` takes of such a text, line by line. -/
theorem readFrom_eq {text : CString} (h : Unjoined text) (front : List (UInt8 × Bool)) :
    (readFrom front false text).map (List.map Prod.fst) =
      (((text.splitOn newline).map unquoted).modifyHead (front.map Prod.fst ++ ·)).dropLast := by
  induction h generalizing front with
  | nil => rfl
  | @plain b rest hnul hslash _ ih =>
      obtain ⟨line, lines, hsplit⟩ :=
        List.exists_cons_of_ne_nil (List.splitOn_ne_nil newline rest)
      rw [readFrom, if_neg hnul, if_neg Bool.false_ne_true, if_neg hslash,
        List.splitOn_cons_eq_if_modifyHead]
      by_cases hb : b = newline
      · have hrest := ih []
        rw [hsplit] at hrest
        rw [if_pos hb, if_pos (by simp [hb]), hsplit, List.map_cons, hrest]
        simp [unquoted]
      · rw [if_neg hb, if_neg (by simp [hb]), ih, hsplit]
        simp [unquoted_cons hslash]
  | @quoted c rest hnul hnewline _ ih =>
      obtain ⟨line, lines, hsplit⟩ :=
        List.exists_cons_of_ne_nil (List.splitOn_ne_nil newline rest)
      have hslash : backslash ≠ 0 := by decide
      have hline : backslash ≠ newline := by decide
      rw [readFrom, if_neg hslash, if_neg Bool.false_ne_true, if_pos rfl, readFrom, if_neg hnul,
        if_pos rfl, if_neg hnewline, ih, List.splitOn_cons_eq_if_modifyHead,
        if_neg (by simp [hline]), List.splitOn_cons_eq_if_modifyHead, if_neg (by simp [hnewline]),
        hsplit]
      simp [unquoted_backslash]

end Unjoined

/-- The separators that are trimmed make no field. -/
theorem fields_trimQuoted (line : List (UInt8 × Bool)) :
    fields (trimQuoted line) = fields (line.map Prod.fst) := by
  have hfront : ∀ (p : UInt8 × Bool → Bool), (∀ b, p b = true → fieldSeparator b.1 = true) →
      ∀ line : List (UInt8 × Bool),
        fields ((line.dropWhile p).map Prod.fst) = fields (line.map Prod.fst) := by
    intro p hp line
    induction line with
    | nil => rfl
    | cons b line ih =>
        by_cases hb : p b = true
        · rw [List.dropWhile_cons_of_pos hb, ih, List.map_cons, fields_cons (hp b hb)]
        · rw [List.dropWhile_cons_of_neg hb]
  have hback : ∀ (p : UInt8 × Bool → Bool), (∀ b, p b = true → fieldSeparator b.1 = true) →
      ∀ line : List (UInt8 × Bool),
        fields ((line.rdropWhile p).map Prod.fst) = fields (line.map Prod.fst) := by
    intro p hp line
    induction line using List.reverseRecOn with
    | nil => rfl
    | append_singleton line b ih =>
        by_cases hb : p b = true
        · rw [List.rdropWhile_concat_pos _ _ _ hb, ih, List.map_append, List.map_singleton,
            fields_concat _ (hp b hb)]
        · rw [List.rdropWhile_concat_neg _ _ _ hb]
  have hseparator : ∀ b : UInt8 × Bool, (fieldSeparator b.1 && !b.2) = true →
      fieldSeparator b.1 = true := fun b hb => (Bool.and_eq_true_iff.mp hb).1
  rw [trimQuoted, hback _ hseparator, hfront _ hseparator]

/-- The fields of the lines that `read` delivers. -/
theorem Unjoined.fields_readLines {text : CString} (h : Unjoined text) :
    (readLines text).map fields =
      ((text.splitOn newline).dropLast.map unquoted).map fields := by
  have htaken := h.readFrom_eq []
  have hnone : ∀ lines : List CString, lines.modifyHead (([] : CString) ++ ·) = lines := by
    intro lines
    cases lines <;> rfl
  rw [List.map_nil, hnone, ← List.map_dropLast] at htaken
  rw [readLines, List.map_map, ← htaken, List.map_map]
  exact List.map_congr_left fun line _ => fields_trimQuoted line

/-- Take the bytes of one line, to the end of the text when there is no newline. -/
def readOne (line : List (UInt8 × Bool)) (quoted : Bool) : CString → List (UInt8 × Bool)
  | [] => line
  | b :: rest =>
      if b = 0 then readOne line quoted rest
      else if quoted then
        if b = newline then readOne line false rest
        else readOne (line ++ [(b, true)]) false rest
      else if b = backslash then readOne line true rest
      else if b = newline then line
      else readOne (line ++ [(b, false)]) false rest

/-- The value of the variable behind one `read`. -/
def readLine (text : CString) : CString :=
  trimQuoted (readOne [] false text)

/-- What is read of a line are some of its bytes. -/
theorem readOne_sublist (line : CString) (front : List (UInt8 × Bool)) (quoted : Bool) :
    ((readOne front quoted (line ++ [newline])).map Prod.fst).Sublist
      (front.map Prod.fst ++ line) := by
  induction line generalizing front quoted with
  | nil =>
      rw [List.append_nil, List.nil_append]
      cases quoted <;> exact List.Sublist.refl _
  | cons b line ih =>
      have hskip : ∀ quoted, ((readOne front quoted (line ++ [newline])).map Prod.fst).Sublist
          (front.map Prod.fst ++ b :: line) := fun quoted =>
        (ih front quoted).trans ((List.sublist_cons_self b line).append_left _)
      have htake : ∀ mark, ((readOne (front ++ [(b, mark)]) false (line ++ [newline])).map
          Prod.fst).Sublist (front.map Prod.fst ++ b :: line) := fun mark => by
        have htail := ih (front ++ [(b, mark)]) false
        rwa [List.map_append, List.map_singleton, List.append_assoc, List.singleton_append] at htail
      rw [List.cons_append, readOne]
      split_ifs
      · exact hskip quoted
      · exact hskip false
      · exact htake true
      · exact hskip true
      · exact (List.sublist_append_left _ _)
      · exact htake false

/-- A backslash is not read. -/
theorem readOne_length_lt {line : CString} (h : backslash ∈ line) (front : List (UInt8 × Bool)) :
    (readOne front false (line ++ [newline])).length < front.length + line.length := by
  induction line generalizing front with
  | nil => cases h
  | cons b line ih =>
      have hlength := (readOne_sublist line front true).length_le
      rw [List.length_map, List.length_append, List.length_map] at hlength
      have hnul : backslash ≠ 0 := by decide
      have hnewline : backslash ≠ newline := by decide
      have hrest : b ≠ backslash → backslash ∈ line := fun hb =>
        (List.mem_cons.mp h).resolve_left (Ne.symm hb)
      rw [List.cons_append, readOne, if_neg Bool.false_ne_true, List.length_cons]
      split_ifs with hzero hslash hline
      · have hless := ih (hrest fun hb => hnul (hb ▸ hzero)) front
        omega
      · omega
      · omega
      · have hless := ih (hrest hslash) (front ++ [(b, false)])
        rw [List.length_append, List.length_singleton] at hless
        omega

/-- Trimming drops bytes. -/
theorem trimQuoted_sublist (line : List (UInt8 × Bool)) :
    (trimQuoted line).Sublist (line.map Prod.fst) :=
  ((List.rdropWhile_prefix _ _).sublist.trans (List.dropWhile_sublist _)).map _

/-- The value that `read` gives is a part of the line. -/
theorem readLine_sublist (line : CString) : (readLine (line ++ [newline])).Sublist line :=
  (trimQuoted_sublist _).trans (readOne_sublist line [] false)

/-- Of a plain line `read` takes all bytes. -/
theorem readOne_line {line : CString} (h : PlainLine line) (front : List (UInt8 × Bool))
    (rest : CString) :
    readOne front false (line ++ newline :: rest) = front ++ line.map fun b => (b, false) := by
  induction line generalizing front with
  | nil =>
      have hnul : newline ≠ 0 := by decide
      have hslash : newline ≠ backslash := by decide
      rw [List.nil_append, readOne, if_neg hnul, if_neg Bool.false_ne_true, if_neg hslash,
        if_pos rfl, List.map_nil, List.append_nil]
  | cons b line ih =>
      obtain ⟨hnul, hslash, hnewline⟩ := h b List.mem_cons_self
      have hline : PlainLine line := fun c hc => h c (List.mem_cons_of_mem b hc)
      rw [List.cons_append, readOne, if_neg hnul, if_neg Bool.false_ne_true, if_neg hslash,
        if_neg hnewline, ih hline, List.map_cons, List.append_assoc, List.singleton_append]

/-- The lines that `read` leaves as they are have no backslash, and no separator at an end. -/
theorem readLine_eq_self_iff {line : CString} (hnul : 0 ∉ line) (hnewline : newline ∉ line) :
    readLine (line ++ [newline]) = line ↔ backslash ∉ line ∧ trim line = line := by
  by_cases hslash : backslash ∈ line
  · have hshort := (trimQuoted_sublist (readOne [] false (line ++ [newline]))).length_le
    have hless := readOne_length_lt hslash []
    rw [List.length_map] at hshort
    rw [List.length_nil, Nat.zero_add] at hless
    constructor
    · intro heq
      have hlength := congrArg List.length heq
      rw [readLine] at hlength
      omega
    · exact fun h => absurd hslash h.1
  · have hplain : PlainLine line := by
      intro b hb
      refine ⟨?_, ?_, ?_⟩
      · rintro rfl
        exact hnul hb
      · rintro rfl
        exact hslash hb
      · rintro rfl
        exact hnewline hb
    rw [readLine, readOne_line hplain, List.nil_append, trimQuoted_map]
    exact ⟨fun heq => ⟨hslash, heq⟩, fun h => h.2⟩

/-- The texts with no separator at an end. -/
theorem trim_eq_self_iff (text : CString) :
    trim text = text ↔ (∀ b ∈ text.head?, fieldSeparator b = false) ∧
      ∀ b ∈ text.getLast?, fieldSeparator b = false := by
  have hfront : text.dropWhile fieldSeparator = text ↔
      ∀ b ∈ text.head?, fieldSeparator b = false := by
    cases text with
    | nil => simp
    | cons b text => simp [List.dropWhile_eq_self_iff]
  have hback : text.rdropWhile fieldSeparator = text ↔
      ∀ b ∈ text.getLast?, fieldSeparator b = false := by
    rw [List.rdropWhile_eq_self_iff]
    cases text with
    | nil => simp
    | cons b text => simp [List.getLast?_eq_some_getLast (List.cons_ne_nil b text)]
  rw [← hfront, ← hback]
  constructor
  · intro h
    have hdrop : text.dropWhile fieldSeparator = text := by
      have hshort := (List.rdropWhile_prefix fieldSeparator
        (text.dropWhile fieldSeparator)).length_le
      rw [trim] at h
      rw [h] at hshort
      exact (List.dropWhile_suffix fieldSeparator).eq_of_length_le hshort
    rw [trim, hdrop] at h
    exact ⟨hdrop, h⟩
  · rintro ⟨hdrop, hrdrop⟩
    rw [trim, hdrop, hrdrop]

end Foundations
