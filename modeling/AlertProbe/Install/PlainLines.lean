import AlertProbe.Install.Packages

/-!
# Lines of plain words

What the installer makes of lines that consist of words which neither the shell
nor the tools change: the output of `echo $line`, the number of braces and square
brackets on a line, and the value behind a key.

Main results:

- Theorem `shown_tokenLine`: what `echo $line` prints for a line of plain words.
- Theorem `member_of_line`: the value that the installer takes from the only line
  with a key.
- Theorem `PKG_TYPE_of_plain`: the type of a package with a plain name.
- Theorem `blockBraces_delivered`: the braces that the installer counts.
-/

namespace AlertProbe

open Foundations

/-- Documented behaviour of the tools: a word without a pattern stands for itself, and text of
printable ASCII characters is not binary. -/
structure Host.Documented (host : Host) : Prop where
  glob_word : ∀ files word,
    (∀ b ∈ word, b ≠ charByte '*' ∧ b ≠ charByte '?' ∧ b ≠ backslash) →
      charByte '[' ∉ word ∨ charByte ']' ∉ word → host.glob files word = [word]
  text : ∀ text, (∀ b ∈ text, printableByte b = true ∨ b = newline) → host.binary text = false

/-- The tools of the example machine behave as documented. -/
theorem exampleHost_documented : exampleHost.Documented where
  glob_word _ _ _ _ := rfl
  text text h := by
    have hnul : (0 : UInt8) ∉ text := by
      intro hmem
      rcases h 0 hmem with hprintable | hnewline
      · exact absurd hprintable (by decide)
      · exact absurd hnewline (by decide)
    simpa [exampleHost] using hnul

/-! ## Lines of plain words -/

/-- Printable characters other than blanks, backslashes and the characters of patterns. -/
def wordByte (b : UInt8) : Bool :=
  printableByte b && b != blank && b != backslash && b != charByte '*' && b != charByte '?'

/-- A word that neither the shell nor `echo` changes. -/
structure PlainWord (word : CString) : Prop where
  ne_nil : word ≠ []
  bytes : ∀ b ∈ word, wordByte b = true
  bracket : charByte '[' ∉ word ∨ charByte ']' ∉ word
  not_option : word ≠ ascii "-n"

/-- What a line of tokens shows. -/
def shownLine (line : TokenLine) : CString :=
  [blank].intercalate line.words

section

variable {host : Host}

/-- A byte of a word. -/
theorem wordByte_spec {b : UInt8} (hb : wordByte b = true) :
    printableByte b = true ∧ b ≠ backslash ∧ b ≠ charByte '*' ∧ b ≠ charByte '?' ∧
      fieldSeparator b = false := by
  simp only [wordByte, Bool.and_eq_true, bne_iff_ne] at hb
  obtain ⟨⟨⟨⟨hprintable, hblank⟩, hslash⟩, hstar⟩, hquestion⟩ := hb
  refine ⟨hprintable, hslash, hstar, hquestion, ?_⟩
  have htab : b ≠ 9 := by
    rintro rfl
    exact absurd hprintable (by decide)
  have hnewline : b ≠ newline := by
    rintro rfl
    exact absurd hprintable (by decide)
  simp [fieldSeparator, hblank, htab, hnewline]

/-- The fields of a line are its words. -/
theorem fields_tokenLine {line : TokenLine} (h : ∀ word ∈ line.words, PlainWord word) :
    fields (trim line.text) = line.words := by
  rw [fields_trim, TokenLine.text, fields_append]
  · apply fields_intercalate
    intro word hword
    exact ⟨(h word hword).ne_nil, fun b hb => (wordByte_spec ((h word hword).bytes b hb)).2.2.2.2⟩
  · intro b hb
    rw [List.eq_of_mem_replicate hb]
    rfl

/-- Words without patterns are expanded to themselves. -/
theorem words_of_noPattern (hhost : host.Documented) {files : List CString} {value : CString}
    (h : ∀ word ∈ fields value,
      (∀ b ∈ word, b ≠ charByte '*' ∧ b ≠ charByte '?' ∧ b ≠ backslash) ∧
        (charByte '[' ∉ word ∨ charByte ']' ∉ word)) :
    words host files value = fields value := by
  have hglob : ∀ word ∈ fields value, host.glob files word = [word] := fun word hword =>
    hhost.glob_word files word (h word hword).1 (h word hword).2
  rw [words, List.flatMap_congr hglob, List.flatMap_singleton']

/-- Plain words are expanded to themselves. -/
theorem words_of_plain (hhost : host.Documented) {files : List CString} {value : CString}
    (h : ∀ word ∈ fields value, PlainWord word) : words host files value = fields value := by
  apply words_of_noPattern hhost
  intro word hword
  refine ⟨fun b hb => ?_, (h word hword).bracket⟩
  obtain ⟨-, hslash, hstar, hquestion, -⟩ := wordByte_spec ((h word hword).bytes b hb)
  exact ⟨hstar, hquestion, hslash⟩

/-- Plain words are printed as they are. -/
theorem echo_of_plain {arguments : List CString} (h : ∀ word ∈ arguments, PlainWord word) :
    echo arguments = [blank].intercalate arguments ++ [newline] := by
  apply echo_of_escapeFree
  · intro word hword
    apply escapeFree_of_not_mem
    intro hslash
    exact (wordByte_spec ((h word hword).bytes _ hslash)).2.1 rfl
  · intro hoption
    exact (h _ (List.mem_of_head? hoption)).not_option rfl

/-- What `echo $line` prints for a line of plain words. -/
theorem shown_tokenLine (hhost : host.Documented) (files : List CString) {line : TokenLine}
    (h : ∀ word ∈ line.words, PlainWord word) :
    shown host files (trim line.text) = shownLine line ++ [newline] := by
  have hfields := fields_tokenLine h
  rw [shown, words_of_plain hhost (by rw [hfields]; exact h), hfields, echo_of_plain h]
  rfl

/-- The bytes of such a line. -/
theorem shownLine_bytes {line : TokenLine} (h : ∀ word ∈ line.words, PlainWord word) :
    ∀ b ∈ shownLine line, printableByte b = true ∧ b ≠ backslash := by
  have hall : ∀ words : List CString, (∀ word ∈ words, PlainWord word) →
      ∀ b ∈ [blank].intercalate words, printableByte b = true ∧ b ≠ backslash := by
    intro words hwords
    induction words with
    | nil => simp
    | cons word words ih =>
        have hword : ∀ b ∈ word, printableByte b = true ∧ b ≠ backslash := by
          intro b hb
          obtain ⟨hprintable, hslash, -⟩ :=
            wordByte_spec ((hwords word List.mem_cons_self).bytes b hb)
          exact ⟨hprintable, hslash⟩
        have hrest := ih fun w hw => hwords w (List.mem_cons_of_mem word hw)
        cases words with
        | nil => simpa using hword
        | cons next words =>
            intro b hb
            rw [List.intercalate_cons_cons, List.append_assoc, List.mem_append,
              List.singleton_append, List.mem_cons] at hb
            rcases hb with hb | rfl | hb
            · exact hword b hb
            · decide
            · exact hrest b hb
  exact hall line.words h

/-- The number of occurrences of a character in a line of plain words. -/
theorem occurrences_shownLine (hhost : host.Documented) (c : UInt8) {line : TokenLine}
    (h : ∀ word ∈ line.words, PlainWord word) :
    occurrences host c (shownLine line ++ [newline]) =
      (shownLine line ++ [newline]).count c := by
  have htext : host.binary (shownLine line ++ [newline]) = false := by
    apply hhost.text
    intro b hb
    rcases List.mem_append.mp hb with hb | hb
    · exact Or.inl (shownLine_bytes h b hb).1
    · exact Or.inr (List.mem_singleton.mp hb)
  rw [occurrences, htext]
  rfl

end

/-! ## Members on a line -/

/-- Letters, digits and the marks of file names and of base64. -/
def plainByte (b : UInt8) : Bool :=
  alphanumeric b || (ascii "._-+~/=").contains b

/-- Text that JSON, the shell and the tools leave as it is. -/
def PlainText (text : CString) : Prop :=
  ∀ b ∈ text, plainByte b = true

/-- A plain byte is part of a word and no mark of JSON. -/
theorem plainByte_spec : ∀ b, plainByte b = true →
    wordByte b = true ∧ b ≠ quote ∧ b ≠ charByte ':' ∧ b ≠ charByte ',' ∧ b ≠ charByte '[' ∧
      b ≠ charByte ']' ∧ b ≠ 123 ∧ b ≠ 125 ∧ b ≠ blank ∧ b ≠ newline ∧ b ≠ 0 := by
  decide +kernel

/-- A byte that is not plain does not occur in plain text. -/
theorem PlainText.not_mem {text : CString} (h : PlainText text) {b : UInt8}
    (hb : plainByte b = false) : b ∉ text := by
  intro hmem
  rw [h b hmem] at hb
  cases hb

/-- To drop a byte that is not plain changes nothing in plain text. -/
theorem PlainText.filter_ne {text : CString} (h : PlainText text) {c : UInt8}
    (hc : plainByte c = false) : (text.filter fun b => ¬ b = c) = text := by
  rw [List.filter_eq_self]
  intro b hb
  rw [decide_eq_true_eq]
  rintro rfl
  exact h.not_mem hc hb

/-- A comma or nothing stands behind a member and behind an object. -/
def MemberEnd (tail : CString) : Prop :=
  tail = [] ∨ tail = [charByte ',']

/-- A comma stands behind a member that is not the last one. -/
theorem memberEnd_comma : MemberEnd [charByte ','] :=
  Or.inr rfl

/-- The line `"key": ` and what follows on it. -/
def keyText (key rest : CString) : CString :=
  quote :: (key ++ quote :: (ascii ": " ++ rest))

/-- The line `"key": "value"` and what follows on it. -/
def memberText (key value tail : CString) : CString :=
  keyText key (quote :: (value ++ quote :: tail))

/-- The value on such a line, as the installer takes it. -/
theorem memberValue_memberText {key value tail : CString} (hkey : PlainText key)
    (hvalue : PlainText value) (htail : MemberEnd tail) :
    memberValue (memberText key value tail) = value := by
  -- the line without blanks, around its colon
  have hblanks : (Substitution.single blank []).apply (memberText key value tail) =
      (quote :: (key ++ [quote])) ++ charByte ':' :: (quote :: (value ++ quote :: tail)) := by
    have hcolon : ((ascii ": ").filter fun b => ¬ b = blank) = [charByte ':'] := rfl
    have hquote : quote ≠ blank := by decide
    have htail' : (tail.filter fun b => ¬ b = blank) = tail := by
      rcases htail with rfl | rfl <;> rfl
    rw [Substitution.apply_single_nil, memberText, keyText]
    simp only [List.filter_cons, List.filter_append, ne_eq, hquote, not_false_eq_true,
      decide_true, if_true, hcolon, htail', hkey.filter_ne (c := blank) rfl,
      hvalue.filter_ne (c := blank) rfl]
    simp
  have hfront : charByte ':' ∉ quote :: (key ++ [quote]) := by
    have hcolon := hkey.not_mem (b := charByte ':') rfl
    have hquote : charByte ':' ≠ quote := by decide
    simp [hcolon, hquote]
  have hback : charByte ':' ∉ quote :: (value ++ quote :: tail) := by
    have hcolon := hvalue.not_mem (b := charByte ':') rfl
    have hquote : charByte ':' ≠ quote := by decide
    have hcomma : charByte ':' ≠ charByte ',' := by decide
    rcases htail with rfl | rfl
    · simp [hcolon, hquote]
    · simp [hcolon, hquote, hcomma]
  have hcomma : charByte ',' ∉ quote :: (value ++ [quote]) := by
    have hvalue' := hvalue.not_mem (b := charByte ',') rfl
    have hquote : charByte ',' ≠ quote := by decide
    simp [hvalue', hquote]
  have hcut : cut (charByte ',') 1 (quote :: (value ++ quote :: tail)) =
      quote :: (value ++ [quote]) := by
    rcases htail with rfl | rfl
    · exact cut_eq_self 1 hcomma
    · have hsplit : quote :: (value ++ quote :: [charByte ',']) =
          (quote :: (value ++ [quote])) ++ charByte ',' :: [] := by simp
      rw [hsplit, cut_first hcomma]
  rw [memberValue, hblanks, cut_second hfront hback, hcut, Substitution.apply_single_nil]
  simp only [List.filter_cons, List.filter_append, ne_eq, not_true_eq_false, decide_false,
    Bool.false_eq_true, if_false, hvalue.filter_ne (c := quote) rfl, List.filter_nil,
    List.append_nil]

/-- Which quoted keys occur on a line with one of them. -/
theorem hasMatch_keyText {pattern key rest : CString} (hpattern : PlainText pattern)
    (hkey : PlainText key) (hrest : quote ∉ rest) :
    hasMatch (quote :: (pattern ++ [quote])) (keyText key rest) = decide (pattern = key) := by
  have hquote : plainByte quote = false := rfl
  have hend : quote ∉ ascii ": " ++ rest := by
    have hcolon : quote ∉ ascii ": " := by decide
    simp [hcolon, hrest]
  rw [keyText, hasMatch_quoted (hpattern.not_mem hquote) (hkey.not_mem hquote),
    hasMatch_end hend, Bool.or_false]

/-- Which quoted keys occur on a line whose value is a string. -/
theorem hasMatch_memberText {pattern key value tail : CString} (hpattern : PlainText pattern)
    (hkey : PlainText key) (hvalue : PlainText value)
    (htail : MemberEnd tail) :
    hasMatch (quote :: (pattern ++ [quote])) (memberText key value tail) =
      (decide (pattern = key) || decide (pattern = value)) := by
  have hquote : plainByte quote = false := rfl
  have hcolon : quote ∉ ascii ": " := by decide
  have hne : pattern ≠ ascii ": " := by
    rintro rfl
    exact absurd (hpattern (charByte ':') (by decide)) (by decide)
  have hend : quote ∉ tail := by
    rcases htail with rfl | rfl <;> decide
  rw [memberText, keyText, hasMatch_quoted (hpattern.not_mem hquote) (hkey.not_mem hquote),
    hasMatch_quoted (hpattern.not_mem hquote) hcolon,
    hasMatch_quoted (hpattern.not_mem hquote) (hvalue.not_mem hquote), hasMatch_end hend]
  simp [hne]

/-- A brace occurs on a line with a key only behind the key. -/
theorem count_keyText {key : CString} (hkey : PlainText key) (rest : CString) {b : UInt8}
    (hb : b = 123 ∨ b = 125) : (keyText key rest).count b = rest.count b := by
  have hplain : plainByte b = false := by
    rcases hb with rfl | rfl <;> rfl
  have hcolon : (ascii ": ").count b = 0 := by
    rcases hb with rfl | rfl <;> rfl
  have hquote : quote ≠ b := by
    rcases hb with rfl | rfl <;> decide
  rw [keyText, List.count_cons_of_ne hquote, List.count_append,
    List.count_eq_zero.mpr (hkey.not_mem hplain), List.count_cons_of_ne hquote,
    List.count_append, hcolon, Nat.zero_add, Nat.zero_add]

/-- A line whose value is a string has no brace. -/
theorem count_memberText {key value tail : CString} (hkey : PlainText key)
    (hvalue : PlainText value) (htail : MemberEnd tail) {b : UInt8}
    (hb : b = 123 ∨ b = 125) : (memberText key value tail).count b = 0 := by
  have hplain : plainByte b = false := by
    rcases hb with rfl | rfl <;> rfl
  have hquote : quote ≠ b := by
    rcases hb with rfl | rfl <;> decide
  have hend : tail.count b = 0 := by
    rcases hb with rfl | rfl <;> rcases htail with rfl | rfl <;> rfl
  rw [memberText, count_keyText hkey _ hb, List.count_cons_of_ne hquote, List.count_append,
    List.count_eq_zero.mpr (hvalue.not_mem hplain), List.count_cons_of_ne hquote, hend]

/-- The value that the installer takes from the only line with a key. -/
theorem member_of_line {host : Host} (hhost : host.Documented) {lines : List TokenLine}
    (hplain : ∀ line ∈ lines, ∀ word ∈ line.words, PlainWord word) {key value tail : CString}
    (hkey : PlainText key) (hvalue : PlainText value) (htail : MemberEnd tail)
    (hline : (lines.map shownLine).filter (hasMatch (quote :: (key ++ [quote]))) =
      [memberText key value tail]) :
    member host (quote :: (key ++ [quote]))
      (newline :: lines.flatMap fun line => shownLine line ++ [newline]) = value := by
  have htext : (newline :: lines.flatMap fun line => shownLine line ++ [newline]) =
      unlines newline ([] :: lines.map shownLine) := by
    simp [unlines, List.flatMap_map]
  have hprintable : ∀ line ∈ lines, ∀ b ∈ shownLine line, printableByte b = true :=
    fun line h b hb => (shownLine_bytes (hplain line h) b hb).1
  have hnewline : ∀ text ∈ [] :: lines.map shownLine, newline ∉ text := by
    intro text hmem hin
    rcases List.mem_cons.mp hmem with rfl | hmem
    · cases hin
    · obtain ⟨line, hl, rfl⟩ := List.mem_map.mp hmem
      exact absurd (hprintable line hl newline hin) (by decide)
  have hbinary : host.binary (unlines newline ([] :: lines.map shownLine)) = false := by
    apply hhost.text
    intro b hb
    rcases mem_unlines hb with hend | ⟨text, hmem, hin⟩
    · exact Or.inr hend
    · rcases List.mem_cons.mp hmem with rfl | hmem
      · cases hin
      · obtain ⟨line, hl, rfl⟩ := List.mem_map.mp hmem
        exact Or.inl (hprintable line hl b hin)
  have hempty : hasMatch (quote :: (key ++ [quote])) [] = false := rfl
  have hgrep : grep host (quote :: (key ++ [quote]))
      (unlines newline ([] :: lines.map shownLine)) = [memberText key value tail] := by
    rw [grep, hbinary, if_neg Bool.false_ne_true, linesOf_unlines hnewline, List.filter_cons,
      hempty, if_neg Bool.false_ne_true, hline]
  have hone : unlines newline [value] = value ++ [newline] := by
    simp [unlines]
  rw [htext, member, hgrep, List.map_singleton, memberValue_memberText hkey hvalue htail, hone,
    commandSubstitution_newline]
  exact commandSubstitution_eq_self (hvalue.not_mem rfl) (hvalue.not_mem rfl)

/-! ## Words of plain text -/

section

variable {host : Host}

/-- Plain text that does not start with a dash is a word. -/
theorem PlainText.word {text : CString} (h : PlainText text) (hne : text ≠ [])
    (hoption : text ≠ ascii "-n") : PlainWord text where
  ne_nil := hne
  bytes b hb := (plainByte_spec b (h b hb)).1
  bracket := Or.inl (h.not_mem rfl)
  not_option := hoption

/-- A plain word is one field, and stands for itself. -/
theorem words_plainWord (hhost : host.Documented) (files : List CString) {text : CString}
    (hword : PlainWord text) : words host files text = [text] := by
  have hfields : fields text = [text] :=
    fields_word hword.ne_nil fun b hb => (wordByte_spec (hword.bytes b hb)).2.2.2.2
  rw [words_of_plain hhost (by rw [hfields]; simpa using hword), hfields]

/-- The type of a package is what stands behind the last dot of its name. -/
theorem PKG_TYPE_of_plain (hhost : host.Documented) (files : List CString)
    {base type : CString} (hbase : PlainText base) (htype : PlainText type)
    (hdot : charByte '.' ∉ type) :
    PKG_TYPE host files (base ++ charByte '.' :: type) = type := by
  have hplain : PlainText (base ++ charByte '.' :: type) := by
    intro b hb
    rcases List.mem_append.mp hb with hb | hb
    · exact hbase b hb
    · rcases List.mem_cons.mp hb with rfl | hb
      · rfl
      · exact htype b hb
  have hword : PlainWord (base ++ charByte '.' :: type) := by
    refine hplain.word (by simp) fun hoption => ?_
    have hmem : charByte '.' ∈ ascii "-n" := by
      rw [← hoption]
      simp
    exact absurd hmem (by decide)
  have hline : newline ∉ base ++ charByte '.' :: type := hplain.not_mem rfl
  have htake : (base ++ charByte '.' :: type).rtakeWhile (· != charByte '.') = type := by
    have hall : ∀ b ∈ type.reverse, (b != charByte '.') = true := by
      intro b hb
      rw [bne_iff_ne]
      rintro rfl
      exact hdot (List.mem_reverse.mp hb)
    rw [List.rtakeWhile, List.reverse_append, List.reverse_cons, List.append_assoc,
      List.takeWhile_append_of_pos hall, List.singleton_append,
      List.takeWhile_cons_of_neg (by simp), List.append_nil, List.reverse_reverse]
  rw [PKG_TYPE, words_plainWord hhost files hword,
    echo_of_plain (by simpa using hword), List.intercalate_singleton, eachLine,
    List.splitOn_append_cons_self_of_not_mem hline, List.splitOn_nil, List.map_cons,
    List.map_singleton, List.intercalate_cons_cons, List.intercalate_singleton, htake]
  have hnil : ([] : CString).rtakeWhile (· != charByte '.') = [] := rfl
  rw [hnil, List.append_nil, commandSubstitution_newline]
  exact commandSubstitution_eq_self (htype.not_mem rfl) (htype.not_mem rfl)

end

/-! ## Lines of a document -/

/-- A string of plain text. -/
def plainString (text : CString) : List Char :=
  text.map fun b => Char.ofNat b.toNat

/-- A line with some marks. -/
def markLine (indent : Nat) (marks : CString) : TokenLine where
  indent := indent
  groups := [marks.map .mark]

/-- A line with a key and the tokens behind it. -/
def keyLine (indent : Nat) (key : String) (rest : List Token) : TokenLine where
  indent := indent
  groups := [[.string key.toList, .mark (charByte ':')], rest]

/-- A line with a member whose value is a string, and the marks behind it. -/
def memberLine (indent : Nat) (key : String) (value tail : CString) : TokenLine :=
  keyLine indent key (.string (plainString value) :: tail.map .mark)

/-- A line with a member whose value is a number, and the marks behind it. -/
def numberLine (indent : Nat) (key : String) (value : Nat) (tail : CString) : TokenLine :=
  keyLine indent key (.number ⟨false, value, none, none⟩ :: tail.map .mark)

/-- A line on which a nested object begins. -/
def nestedLine (indent : Nat) (key : String) : TokenLine :=
  keyLine indent key [.mark 123]

/-! ## Strings of plain text -/

/-- A plain byte is an ASCII character that JSON spells by itself. -/
theorem plainByte_char : ∀ b, plainByte b = true →
    plainChar (Char.ofNat b.toNat) = true ∧ charByte (Char.ofNat b.toNat) = b ∧
      String.utf8EncodeChar (Char.ofNat b.toNat) = [b] := by
  decide +kernel

/-- A string of plain text needs no escape. -/
theorem PlainText.plain_string {text : CString} (h : PlainText text) :
    (Token.string (plainString text)).plain = true := by
  rw [Token.plain, List.all_eq_true]
  intro c hc
  obtain ⟨b, hb, rfl⟩ := List.mem_map.mp hc
  exact (plainByte_char b (h b hb)).1

/-- It is spelled by its bytes. -/
theorem PlainText.plainText_string {text : CString} (h : PlainText text) :
    (Token.string (plainString text)).plainText = quote :: (text ++ [quote]) := by
  have hbytes : (plainString text).map charByte = text := by
    rw [plainString, List.map_map]
    exact (List.map_congr_left fun b hb => (plainByte_char b (h b hb)).2.1).trans (List.map_id _)
  rw [Token.plainText, hbytes]
  rfl

/-- Its UTF-8 text are its bytes. -/
theorem PlainText.utf8_plainString {text : CString} (h : PlainText text) :
    utf8 (plainString text) = text := by
  rw [utf8, plainString, List.flatMap_map]
  exact (List.flatMap_congr fun b hb => (plainByte_char b (h b hb)).2.2).trans
    (List.flatMap_singleton' text)

/-- Marks are spelled by themselves. -/
theorem flatMap_marks (marks : CString) :
    (marks.map Token.mark).flatMap Token.plainText = marks := by
  rw [List.flatMap_map]
  exact List.flatMap_singleton' marks

/-- A natural number is spelled by its digits. -/
theorem plainText_number (value : Nat) :
    (Token.number ⟨false, value, none, none⟩).plainText = decimalNat value := by
  simp [Token.plainText, JsonNumber.text]

/-- The digits of a number are plain. -/
theorem plainText_decimalNat (n : Nat) : PlainText (decimalNat n) := by
  intro b hb
  simp [plainByte, alphanumeric, isDigit_of_mem_decimalNat hb]

/-! ## What the lines show -/

/-- The words of a line with a key. -/
theorem keyLine_words (indent : Nat) (key : String) (rest : List Token) :
    (keyLine indent key rest).words =
      [quote :: (ascii key ++ [quote, charByte ':']), rest.flatMap Token.plainText] := by
  simp [keyLine, TokenLine.words, Token.plainText, ascii]

/-- A line with a key shows the key and what follows. -/
theorem shownLine_keyLine (indent : Nat) (key : String) (rest : List Token) :
    shownLine (keyLine indent key rest) =
      keyText (ascii key) (rest.flatMap Token.plainText) := by
  have hcolon : ascii ": " = [charByte ':', blank] := rfl
  rw [shownLine, keyLine_words, keyText, hcolon, List.intercalate_cons_cons,
    List.intercalate_singleton]
  simp

/-- A line whose value is a string shows its key and its value. -/
theorem shownLine_memberLine (indent : Nat) (key : String) {value : CString} (tail : CString)
    (hvalue : PlainText value) :
    shownLine (memberLine indent key value tail) = memberText (ascii key) value tail := by
  rw [memberLine, shownLine_keyLine, List.flatMap_cons, hvalue.plainText_string, flatMap_marks,
    memberText]
  simp

/-- A line whose value is a number shows its key and the digits of the number. -/
theorem shownLine_numberLine (indent : Nat) (key : String) (value : Nat) (tail : CString) :
    shownLine (numberLine indent key value tail) =
      keyText (ascii key) (decimalNat value ++ tail) := by
  rw [numberLine, shownLine_keyLine, List.flatMap_cons, plainText_number, flatMap_marks]

/-- A line on which an object begins shows its key and the brace. -/
theorem shownLine_nestedLine (indent : Nat) (key : String) :
    shownLine (nestedLine indent key) = keyText (ascii key) [123] :=
  shownLine_keyLine indent key [.mark 123]

/-- A line of marks shows the marks. -/
theorem shownLine_markLine (indent : Nat) (marks : CString) :
    shownLine (markLine indent marks) = marks := by
  simp [shownLine, markLine, TokenLine.words, flatMap_marks]

/-- Plain bytes and the marks of JSON other than square brackets. -/
def jsonByte (b : UInt8) : Bool :=
  plainByte b || (ascii "\":,\x7b\x7d").contains b

/-- Words of such bytes are plain. -/
theorem plainWord_of_all {word : CString} (hne : word ≠ []) (h : word.all jsonByte = true)
    (hoption : word ≠ ascii "-n") : PlainWord word where
  ne_nil := hne
  bytes b hb := by
    have hspec : ∀ b, jsonByte b = true → wordByte b = true := by decide +kernel
    exact hspec b (List.all_eq_true.mp h b hb)
  bracket := Or.inl fun hbracket => absurd (List.all_eq_true.mp h _ hbracket) (by decide)
  not_option := hoption

/-- All bytes of plain text are such bytes. -/
theorem PlainText.all_jsonByte {text : CString} (h : PlainText text) :
    text.all jsonByte = true := by
  rw [List.all_eq_true]
  intro b hb
  rw [jsonByte, h b hb, Bool.true_or]

/-- So are the bytes behind a member. -/
theorem MemberEnd.all_jsonByte {tail : CString} (h : MemberEnd tail) :
    tail.all jsonByte = true := by
  rcases h with rfl | rfl <;> rfl

/-- A quoted text with marks behind it is a word. -/
theorem plainWord_quoted {text tail : CString} (htext : PlainText text)
    (htail : tail.all jsonByte = true) : PlainWord (quote :: (text ++ quote :: tail)) := by
  apply plainWord_of_all (List.cons_ne_nil _ _)
  · rw [List.all_cons, List.all_append, List.all_cons, htext.all_jsonByte, htail]
    rfl
  · intro hoption
    have hhead := (List.cons.inj hoption).1
    exact absurd hhead (by decide)

/-- A number with what may follow it is a word. -/
theorem plainWord_decimalNat (value : Nat) {tail : CString} (htail : MemberEnd tail) :
    PlainWord (decimalNat value ++ tail) := by
  apply plainWord_of_all
  · exact List.append_ne_nil_of_left_ne_nil (decimalNat_ne_nil value) tail
  · rw [List.all_append, (plainText_decimalNat value).all_jsonByte, htail.all_jsonByte]
    rfl
  · intro hoption
    have hdash : charByte '-' ∈ decimalNat value ++ tail := by
      rw [hoption]
      decide
    rcases List.mem_append.mp hdash with hdash | hdash
    · exact absurd (isDigit_of_mem_decimalNat hdash) (by decide)
    · rcases htail with rfl | rfl
      · cases hdash
      · exact absurd hdash (by decide)

/-- The brace in front of an object is a word. -/
theorem plainWord_open : PlainWord [123] :=
  plainWord_of_all (List.cons_ne_nil _ _) rfl (by decide)

/-- The brace behind an object is a word, with or without a comma. -/
theorem plainWord_close {tail : CString} (htail : MemberEnd tail) : PlainWord (125 :: tail) := by
  rcases htail with rfl | rfl
  · exact plainWord_of_all (List.cons_ne_nil _ _) rfl (by decide)
  · exact plainWord_of_all (List.cons_ne_nil _ _) rfl (by decide)

/-- A square bracket is a word. -/
theorem plainWord_bracket {b : UInt8} (hb : b = charByte '[' ∨ b = charByte ']') :
    PlainWord [b] where
  ne_nil := List.cons_ne_nil _ _
  bytes := by
    rcases hb with rfl | rfl <;> exact List.forall_mem_singleton.mpr rfl
  bracket := by
    rcases hb with rfl | rfl <;> decide
  not_option h := by
    have hlength : 1 = 2 := congrArg List.length h
    exact absurd hlength (by decide)

/-- The words of a line with a key are plain when what follows is. -/
theorem keyLine_plain (indent : Nat) {key : String} {rest : List Token}
    (hkey : PlainText (ascii key)) (hrest : PlainWord (rest.flatMap Token.plainText)) :
    ∀ word ∈ (keyLine indent key rest).words, PlainWord word := by
  rw [keyLine_words]
  intro word hword
  simp only [List.mem_cons, List.not_mem_nil, or_false] at hword
  rcases hword with rfl | rfl
  · exact plainWord_quoted hkey rfl
  · exact hrest

/-- A word of marks is plain. -/
theorem markLine_plain (indent : Nat) {marks : CString} (hmarks : PlainWord marks) :
    ∀ word ∈ (markLine indent marks).words, PlainWord word := by
  simpa [markLine, TokenLine.words, flatMap_marks] using hmarks

/-- The words of a line whose value is a string are plain. -/
theorem memberLine_plain (indent : Nat) {key : String} {value tail : CString}
    (hkey : PlainText (ascii key)) (hvalue : PlainText value) (htail : MemberEnd tail) :
    ∀ word ∈ (memberLine indent key value tail).words, PlainWord word := by
  apply keyLine_plain indent hkey
  have hword := plainWord_quoted hvalue htail.all_jsonByte
  rw [List.flatMap_cons, hvalue.plainText_string, flatMap_marks]
  simpa using hword

/-- The words of a line whose value is a number are plain. -/
theorem numberLine_plain (indent : Nat) {key : String} (value : Nat) {tail : CString}
    (hkey : PlainText (ascii key)) (htail : MemberEnd tail) :
    ∀ word ∈ (numberLine indent key value tail).words, PlainWord word := by
  apply keyLine_plain indent hkey
  rw [List.flatMap_cons, plainText_number, flatMap_marks]
  exact plainWord_decimalNat value htail

/-- A line of marks has no key. -/
theorem hasMatch_marks (pattern : CString) {marks : CString} (hmarks : quote ∉ marks) :
    hasMatch (quote :: pattern) marks = false := by
  rw [← List.append_nil marks, hasMatch_append hmarks]
  rfl

/-! ## What the installer counts and collects -/

/-- Braces opened less braces closed by a line. -/
def lineBraces (line : TokenLine) : Int :=
  (shownLine line).count 123 - (shownLine line).count 125

/-- A line whose value is a string opens and closes nothing. -/
theorem lineBraces_memberLine (indent : Nat) {key : String} {value tail : CString}
    (hkey : PlainText (ascii key)) (hvalue : PlainText value) (htail : MemberEnd tail) :
    lineBraces (memberLine indent key value tail) = 0 := by
  rw [lineBraces, shownLine_memberLine indent key tail hvalue,
    count_memberText hkey hvalue htail (Or.inl rfl),
    count_memberText hkey hvalue htail (Or.inr rfl)]
  rfl

/-- A line whose value is a number opens and closes nothing. -/
theorem lineBraces_numberLine (indent : Nat) {key : String} (value : Nat) {tail : CString}
    (hkey : PlainText (ascii key)) (htail : MemberEnd tail) :
    lineBraces (numberLine indent key value tail) = 0 := by
  have hcount : ∀ b, b = 123 ∨ b = 125 → (decimalNat value ++ tail).count b = 0 := by
    intro b hb
    have hplain : plainByte b = false := by
      rcases hb with rfl | rfl <;> rfl
    have hend : tail.count b = 0 := by
      rcases hb with rfl | rfl <;> rcases htail with rfl | rfl <;> rfl
    rw [List.count_append, hend,
      List.count_eq_zero.mpr ((plainText_decimalNat value).not_mem hplain)]
  rw [lineBraces, shownLine_numberLine, count_keyText hkey _ (Or.inl rfl),
    count_keyText hkey _ (Or.inr rfl), hcount 123 (Or.inl rfl), hcount 125 (Or.inr rfl)]
  rfl

/-- A line on which an object begins opens a brace. -/
theorem lineBraces_nestedLine (indent : Nat) {key : String} (hkey : PlainText (ascii key)) :
    lineBraces (nestedLine indent key) = 1 := by
  rw [lineBraces, shownLine_nestedLine, count_keyText hkey _ (Or.inl rfl),
    count_keyText hkey _ (Or.inr rfl)]
  rfl

/-- The lines that `read` delivers for some lines of tokens. -/
def deliveredLines (lines : List TokenLine) : List CString :=
  lines.map fun line => trim line.text

section

variable {host : Host}

/-- The braces that the installer counts on lines of plain words. -/
theorem blockBraces_delivered (hhost : host.Documented) (files : List CString)
    {lines : List TokenLine} (h : ∀ line ∈ lines, ∀ word ∈ line.words, PlainWord word) :
    blockBraces host files (deliveredLines lines) = (lines.map lineBraces).sum := by
  have hline : ∀ line ∈ lines, braces host files (trim line.text) = lineBraces line := by
    intro line hl
    have hopen : ([newline] : CString).count 123 = 0 := rfl
    have hclose : ([newline] : CString).count 125 = 0 := rfl
    rw [braces, shown_tokenLine hhost files (h line hl),
      occurrences_shownLine hhost 123 (h line hl), occurrences_shownLine hhost 125 (h line hl),
      List.count_append, List.count_append, hopen, hclose]
    rfl
  rw [blockBraces, deliveredLines, List.map_map]
  exact congrArg List.sum (List.map_congr_left hline)

/-- What `json_package` holds behind lines of plain words. -/
theorem blockText_delivered (hhost : host.Documented) (files : List CString)
    {lines : List TokenLine} (h : ∀ line ∈ lines, ∀ word ∈ line.words, PlainWord word) :
    blockText host files (deliveredLines lines) =
      newline :: lines.flatMap fun line => shownLine line ++ [newline] := by
  rw [blockText, deliveredLines, List.flatMap_map]
  exact congrArg (newline :: ·)
    (List.flatMap_congr fun line hl => shown_tokenLine hhost files (h line hl))

/-- A line with a square bracket is outside of the objects. -/
theorem brackets_markLine (hhost : host.Documented) (files : List CString) {b : UInt8}
    (hb : b = charByte '[' ∨ b = charByte ']') :
    brackets host files (trim (markLine 0 [b]).text) ≠ 0 := by
  have hplain := markLine_plain 0 (plainWord_bracket hb)
  rw [brackets, shown_tokenLine hhost files hplain, occurrences_shownLine hhost _ hplain,
    occurrences_shownLine hhost _ hplain, shownLine_markLine]
  rcases hb with rfl | rfl <;> decide

end

end AlertProbe
