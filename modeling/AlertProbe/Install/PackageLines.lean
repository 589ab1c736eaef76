import AlertProbe.Foundations.JsonLines
import AlertProbe.Install.PlainLines

/-!
# The lines of a document

A JSON document can be laid out on lines in many ways, and the package loop works
for some of them.  As long as the shell shows the lines as they are written, what
counts is where the square brackets, the braces, the keys and the values stand on
the lines of the document.

Main results:

- Theorem `packageLoop_lines`: the loop sees the lines of a JSON text.
- Theorem `memberValue_lineText`: the value that the tools take from a line.
- Theorem `packageBlock_iff`: the lines that install a package.
- Theorem `packages_installed_iff`: the documents whose packages are installed
  once each.
-/

namespace AlertProbe

open Foundations

/-! ## What is written on the lines -/

namespace PackagesDocument

variable (document : PackagesDocument)

/-- The lines that a newline ends. -/
def lines : List CString :=
  (document.text.splitOn newline).dropLast

/-- The names of the package files. -/
def filenames : List CString :=
  document.packages.map Package.filename

end PackagesDocument

/-- The words of a line, without the backslashes of its escapes. -/
def lineWords (line : CString) : List CString :=
  fields (unquoted line)

/-- The words of a line with one blank between them. -/
def lineText (line : CString) : CString :=
  [blank].intercalate (lineWords line)

/-- Braces opened less braces closed on some lines. -/
def depth (block : List CString) : Int :=
  (block.map fun line => (line.count 123 : Int) - line.count 125).sum

/-- The value on a line, without white space and quotes: what stands behind the first colon and in
front of the next colon or comma.  Where there is no colon, the value begins with the line. -/
def lineValue (line : CString) : CString :=
  let text := (lineText line).filter (· ≠ blank)
  let start := if charByte ':' ∈ text then (text.dropWhile (· != charByte ':')).tail else text
  (start.takeWhile fun b => b != charByte ',' && b != charByte ':').filter (· ≠ quote)

/-- The values on the lines with a key. -/
def keyValues (key : CString) (block : List CString) : List CString :=
  (block.filter fun line => hasMatch key (lineText line)).map lineValue

/-- The contents that some lines show. -/
def lineContents (block : List CString) : List CString :=
  (keyValues (ascii "\"content\"") block).filter (· != [])

/-- What stands behind the last dot of a name. -/
def fileType (filename : CString) : CString :=
  filename.rtakeWhile (· != charByte '.')

section

variable (host : Host)

/-- A package that can be installed on the machine, going by its name. -/
def Host.Takes (filename : CString) : Prop :=
  host.canCreate filename = true ∧
    (fileType filename = ascii "deb" ∧ host.dpkg = true ∧ host.apt_get = true ∨
      fileType filename = ascii "rpm" ∧ host.yum = true)

/-- The lines of one package: there is no square bracket on the first one, the braces are balanced
at the last line and not before, and the lines show the name and the content of the package. -/
structure PackageLines (package : Package) (block : List CString) : Prop where
  starts : ∃ line rest, block = line :: rest ∧ charByte '[' ∉ line ∧ charByte ']' ∉ line
  opened : ∀ k, 0 < k → k < block.length → depth (block.take k) ≠ 0
  closed : depth block = 0
  /-- Behind the name the lines with its key show nothing. -/
  filename : ∃ rest, keyValues (ascii "\"filename\"") block = package.filename :: rest ∧
    ∀ value ∈ rest, value = []
  content_shown : lineContents block ≠ []
  /-- Several contents are too many operands for `[`. -/
  content_test :
    (lineContents block).length = 1 ∨ host.test (ascii "-z" :: lineContents block) = false
  content :
    host.base64 ([blank].intercalate (lineContents block) ++ [newline]) = package.decoded host

/-- The lines of a document are divided into lines with a square bracket, outside of the objects,
and one block of lines for each package. -/
inductive LaidOut : List CString → List Package → Prop where
  | done : LaidOut [] []
  | outside {line : CString} {lines : List CString} {packages : List Package}
      (hline : charByte '[' ∈ line ∨ charByte ']' ∈ line) (hrest : LaidOut lines packages) :
      LaidOut (line :: lines) packages
  | package {block lines : List CString} {package : Package} {packages : List Package}
      (hblock : PackageLines host package block) (hrest : LaidOut lines packages) :
      LaidOut (block ++ lines) (package :: packages)

/-- `echo` prints the word as it is, whichever of the named files are there. -/
def Host.Leaves (names : List CString) (word : CString) : Prop :=
  EscapeFree word ∧ ∀ files, files <+: names → host.glob files word = [word]

/-- The shell shows the document as it is written: no word and no value of a line is a pattern
that stands for files, or has a sequence that `echo` interprets; no line begins with the option of
`echo`; and `grep` takes none of it for binary. -/
structure Host.ShowsAsWritten (document : PackagesDocument) : Prop where
  words : ∀ line ∈ document.lines, ∀ word ∈ lineWords line, host.Leaves document.filenames word
  values : ∀ line ∈ document.lines, host.Leaves document.filenames (lineValue line)
  options : ∀ line ∈ document.lines,
    (lineWords line).head? ≠ some (ascii "-n") ∧ lineValue line ≠ ascii "-n"
  filenames : ∀ name ∈ document.filenames,
    newline ∉ name ∧ host.Leaves document.filenames (fileType name)
  text : ∀ block, block <:+: document.lines →
    host.binary (unlines newline (block.map lineText)) = false ∧
      host.binary (newline :: unlines newline (block.map lineText)) = false
  /-- `[` without an operand in front of the equals sign. -/
  test : ∀ literal, host.test [ascii "=", literal] = false

end

/-! ## Reading the lines -/

section

variable {host : Host}

/-- The loop goes by the fields of a line. -/
theorem packageStep_congr {line other : CString} (h : fields line = fields other)
    (s : LoopState) : packageStep host s line = packageStep host s other := by
  have hshown : ∀ files, shown host files line = shown host files other := by
    intro files
    rw [shown, shown, words, words, h]
  have hbrackets : ∀ files, brackets host files line = brackets host files other := by
    intro files
    rw [brackets, brackets, hshown]
  have hbraces : ∀ files, braces host files line = braces host files other := by
    intro files
    rw [braces, braces, hshown]
  simp only [packageStep]
  rw [hbrackets, hbraces, hshown]

/-- So do runs of it. -/
theorem foldlM_congr {lines others : List CString}
    (h : lines.map fields = others.map fields) (s : LoopState) :
    lines.foldlM (packageStep host) s = others.foldlM (packageStep host) s := by
  induction lines generalizing others s with
  | nil =>
      cases others with
      | nil => rfl
      | cons other others => cases h
  | cons line lines ih =>
      cases others with
      | nil => cases h
      | cons other others =>
          rw [List.map_cons, List.map_cons, List.cons.injEq] at h
          rw [List.foldlM_cons, List.foldlM_cons, packageStep_congr h.1]
          exact bind_congr fun t => ih h.2 t

/-- The loop sees the lines of a JSON text, without the backslashes of the escapes. -/
theorem packageLoop_lines (document : PackagesDocument) :
    packageLoop host document.text =
      (document.lines.map unquoted).foldlM (packageStep host) (startLoop []) :=
  foldlM_congr document.isText.unjoined.fields_readLines (startLoop [])

end

/-- The bytes of the lines. -/
theorem PackagesDocument.line_bytes {document : PackagesDocument} {line : CString}
    (hline : line ∈ document.lines) : 0 ∉ line ∧ newline ∉ line := by
  have hpiece := List.mem_of_mem_dropLast hline
  refine ⟨fun hmem => ?_, not_mem_of_mem_splitOn hpiece⟩
  have htext := mem_intercalate_of_mem (x := newline) hpiece hmem
  rw [List.intercalate_splitOn] at htext
  exact document.isText.unjoined.zero_not_mem htext

/-- The bytes of a line as it is shown. -/
theorem mem_lineText {line : CString} {b : UInt8} (hb : b ∈ lineText line) :
    b = blank ∨ b ∈ line ∧ fieldSeparator b = false := by
  rcases mem_intercalate hb with hblank | ⟨word, hword, hmem⟩
  · exact Or.inl hblank
  · exact Or.inr ⟨mem_of_mem_unquoted (mem_of_mem_fields hword hmem), (mem_fields hword).2 b hmem⟩

/-- The bytes of a value. -/
theorem mem_lineValue {line : CString} {b : UInt8} (hb : b ∈ lineValue line) :
    b ∈ line ∧ fieldSeparator b = false := by
  have hstart : b ∈ (lineText line).filter (· ≠ blank) := by
    rw [lineValue] at hb
    have hmem := (List.takeWhile_prefix _).subset (List.mem_filter.mp hb).1
    split at hmem
    · exact (List.dropWhile_suffix _).subset (List.mem_of_mem_tail hmem)
    · exact hmem
  obtain ⟨htext, hblank⟩ := List.mem_filter.mp hstart
  exact (mem_lineText htext).resolve_left (of_decide_eq_true hblank)

/-- A mark stands as often on a line as in what is shown of it. -/
theorem count_lineText {c : UInt8} (hseparator : fieldSeparator c = false) (hslash : c ≠ backslash)
    (line : CString) : (lineText line).count c = line.count c := by
  have hblank : c ≠ blank := by
    rintro rfl
    cases hseparator
  rw [lineText, count_intercalate hblank, lineWords, flatten_fields,
    List.count_filter (by simp [hseparator]), count_unquoted hslash]

/-- The value that the tools take from a line. -/
theorem memberValue_lineText (line : CString) : memberValue (lineText line) = lineValue line := by
  rw [memberValue, Substitution.apply_single_nil, Substitution.apply_single_nil, cut_one, cut_two,
    lineValue]
  have htake : ∀ text : CString,
      (text.takeWhile (· != charByte ':')).takeWhile (· != charByte ',') =
        text.takeWhile fun b => b != charByte ',' && b != charByte ':' := by
    intro text
    simp only [List.takeWhile_takeWhile, Bool.decide_and, Bool.decide_eq_true]
  split
  · rw [htake]
  · rename_i hcolon
    rw [← htake, List.takeWhile_eq_self_iff.mpr (all_bne_of_not_mem hcolon)]

/-- The values with a key stand on lines. -/
theorem exists_line_of_keyValues {key : CString} {block : List CString} {value : CString}
    (hvalue : value ∈ keyValues key block) : ∃ line ∈ block, lineValue line = value := by
  obtain ⟨line, hline, rfl⟩ := List.mem_map.mp hvalue
  exact ⟨line, (List.mem_filter.mp hline).1, rfl⟩

/-- So do the contents. -/
theorem exists_line_of_lineContents {block : List CString} {value : CString}
    (hvalue : value ∈ lineContents block) : ∃ line ∈ block, lineValue line = value :=
  exists_line_of_keyValues (List.mem_filter.mp hvalue).1

/-- When the installer goes on with the contents of some lines. -/
theorem testEmpty_lineContents (host : Host) (block : List CString) :
    testEmpty host (lineContents block) = false ↔ lineContents block ≠ [] ∧
      ((lineContents block).length = 1 ∨ host.test (ascii "-z" :: lineContents block) = false) := by
  have hne : ∀ word ∈ lineContents block, word ≠ [] := fun word hword => by
    simpa using (List.mem_filter.mp hword).2
  match hcontents : lineContents block with
  | [] => simp [testEmpty]
  | [word] =>
      have hword := hne word (by simp [hcontents])
      simp [testEmpty, hword]
  | first :: second :: rest => simp [testEmpty]

/-- A package that can be installed has a name. -/
theorem Host.Takes.ne_nil {host : Host} {filename : CString} (h : host.Takes filename) :
    filename ≠ [] := by
  rintro rfl
  have htypes : fileType [] ≠ ascii "deb" ∧ fileType [] ≠ ascii "rpm" := by decide
  have htype := h.2
  simp [htypes] at htype

/-! ## What the loop sees -/

section

variable {host : Host} {document : PackagesDocument} (h : host.ShowsAsWritten document)
  {files : List CString} (hfiles : files <+: document.filenames)

include h hfiles

/-- The words of a line are expanded to themselves. -/
theorem words_line {line : CString} (hline : line ∈ document.lines) :
    words host files (unquoted line) = lineWords line := by
  have hglob : ∀ word ∈ lineWords line, host.glob files word = [word] :=
    fun word hword => (h.words line hline word hword).2 files hfiles
  rw [words, ← lineWords, List.flatMap_congr hglob, List.flatMap_singleton']

/-- What `echo $line` prints. -/
theorem shown_line {line : CString} (hline : line ∈ document.lines) :
    shown host files (unquoted line) = lineText line ++ [newline] := by
  rw [shown, words_line h hfiles hline]
  exact echo_of_escapeFree (fun word hword => (h.words line hline word hword).1)
    (h.options line hline).1

/-- The number of marks that `grep` finds on a line. -/
theorem occurrences_line {line : CString} (hline : line ∈ document.lines) {c : UInt8}
    (hseparator : fieldSeparator c = false) (hslash : c ≠ backslash) :
    occurrences host c (shown host files (unquoted line)) = line.count c := by
  have hinfix : [line] <:+: document.lines := by
    obtain ⟨front, back, hsplit⟩ := List.append_of_mem hline
    exact ⟨front, back, by rw [hsplit, List.append_assoc, List.singleton_append]⟩
  have htext := (h.text [line] hinfix).1
  have hone : unlines newline ([line].map lineText) = lineText line ++ [newline] := by
    simp [unlines]
  have hnewline : ([newline] : CString).count c = 0 := by
    rw [List.count_eq_zero, List.mem_singleton]
    rintro rfl
    cases hseparator
  rw [hone] at htext
  rw [shown_line h hfiles hline, occurrences, htext, if_neg Bool.false_ne_true, List.count_append,
    hnewline, Nat.add_zero, count_lineText hseparator hslash]

/-- A line without square brackets. -/
theorem brackets_line {line : CString} (hline : line ∈ document.lines) :
    brackets host files (unquoted line) = 0 ↔ charByte '[' ∉ line ∧ charByte ']' ∉ line := by
  rw [brackets, occurrences_line h hfiles hline rfl (by decide),
    occurrences_line h hfiles hline rfl (by decide), Nat.add_eq_zero_iff, List.count_eq_zero,
    List.count_eq_zero]

/-- The braces that the loop counts on some lines. -/
theorem blockBraces_lines {block : List CString} (hblock : ∀ line ∈ block, line ∈ document.lines) :
    blockBraces host files (block.map unquoted) = depth block := by
  rw [blockBraces, depth, List.map_map]
  congr 1
  apply List.map_congr_left
  intro line hline
  rw [Function.comp_apply, braces, occurrences_line h hfiles (hblock line hline) rfl (by decide),
    occurrences_line h hfiles (hblock line hline) rfl (by decide)]

/-- What is collected of some lines. -/
theorem blockText_lines {block : List CString} (hblock : ∀ line ∈ block, line ∈ document.lines) :
    blockText host files (block.map unquoted) =
      newline :: unlines newline (block.map lineText) := by
  rw [blockText, unlines, List.flatMap_map, List.flatMap_map]
  congr 1
  exact List.flatMap_congr fun line hline => shown_line h hfiles (hblock line hline)

/-- The values on the lines with a key. -/
theorem member_lines {block : List CString} (hblock : block <:+: document.lines)
    (key : CString) :
    member host (quote :: key) (blockText host files (block.map unquoted)) =
      commandSubstitution (unlines newline (keyValues (quote :: key) block)) := by
  have htext : newline :: unlines newline (block.map lineText) =
      unlines newline ([] :: block.map lineText) := by
    simp [unlines]
  have hnewline : ∀ text ∈ [] :: block.map lineText, newline ∉ text := by
    intro text hmem hin
    rcases List.mem_cons.mp hmem with rfl | hmem
    · cases hin
    · obtain ⟨line, -, rfl⟩ := List.mem_map.mp hmem
      rcases mem_lineText hin with hblank | ⟨-, hseparator⟩
      · exact absurd hblank (by decide)
      · cases hseparator
  have hempty : hasMatch (quote :: key) [] = false := rfl
  rw [blockText_lines h hfiles fun line hline => hblock.subset hline, member, grep,
    (h.text block hblock).2, if_neg Bool.false_ne_true, htext, linesOf_unlines hnewline,
    List.filter_cons_of_neg (by simp [hempty]), keyValues, List.filter_map, List.map_map]
  congr 2
  exact List.map_congr_left fun line _ => memberValue_lineText line

/-- The contents on the lines. -/
theorem contentWords_lines {block : List CString} (hblock : block <:+: document.lines) :
    contentWords host files (blockText host files (block.map unquoted)) = lineContents block := by
  have hkey : ascii "\"content\"" = quote :: ascii "content\"" := rfl
  have hnul : 0 ∉ unlines newline (keyValues (ascii "\"content\"") block) := by
    intro hmem
    rcases mem_unlines hmem with hend | ⟨value, hin, hb⟩
    · exact absurd hend (by decide)
    · obtain ⟨line, hline, rfl⟩ := exists_line_of_keyValues hin
      exact (PackagesDocument.line_bytes (hblock.subset hline)).1 (mem_lineValue hb).1
  have hfields : fields (commandSubstitution
      (unlines newline (keyValues (ascii "\"content\"") block))) = lineContents block := by
    rw [fields_commandSubstitution hnul, unlines, fields_lines, lineContents]
    intro value hin b hb
    obtain ⟨line, -, rfl⟩ := exists_line_of_keyValues hin
    exact (mem_lineValue hb).2
  have hglob : ∀ word ∈ lineContents block, host.glob files word = [word] := by
    intro word hword
    obtain ⟨line, hline, rfl⟩ := exists_line_of_lineContents hword
    exact (h.values line (hblock.subset hline)).2 files hfiles
  rw [contentWords, hkey, member_lines h hfiles hblock, ← hkey, words, hfields,
    List.flatMap_congr hglob, List.flatMap_singleton']

omit hfiles in
/-- `echo` prints the contents with blanks between them. -/
theorem echo_contents {block : List CString} (hblock : block <:+: document.lines) :
    echo (lineContents block) = [blank].intercalate (lineContents block) ++ [newline] := by
  have hvalue : ∀ word ∈ lineContents block, EscapeFree word ∧ word ≠ ascii "-n" := by
    intro word hword
    obtain ⟨line, hline, rfl⟩ := exists_line_of_lineContents hword
    have hin := hblock.subset hline
    exact ⟨(h.values line hin).1, (h.options line hin).2⟩
  refine echo_of_escapeFree (fun word hword => (hvalue word hword).1) fun hoption => ?_
  exact (hvalue _ (List.mem_of_head? hoption)).2 rfl

/-- The name on the lines. -/
theorem member_filename {block : List CString} (hblock : block <:+: document.lines)
    {name : CString} (hname : name ∈ document.filenames) (hne : name ≠ []) :
    member host (ascii "\"filename\"") (blockText host files (block.map unquoted)) = name ↔
      ∃ rest, keyValues (ascii "\"filename\"") block = name :: rest ∧
        ∀ value ∈ rest, value = [] := by
  have hkey : ascii "\"filename\"" = quote :: ascii "filename\"" := rfl
  have hvalues : ∀ value ∈ keyValues (quote :: ascii "filename\"") block,
      0 ∉ value ∧ newline ∉ value := by
    intro value hvalue
    obtain ⟨line, hline, rfl⟩ := exists_line_of_keyValues hvalue
    have hin := hblock.subset hline
    refine ⟨fun hnul => ?_, fun hnewline => ?_⟩
    · exact (PackagesDocument.line_bytes hin).1 (mem_lineValue hnul).1
    · exact (PackagesDocument.line_bytes hin).2 (mem_lineValue hnewline).1
  rw [hkey, member_lines h hfiles hblock, unlines,
    commandSubstitution_lines hvalues hne (h.filenames name hname).1]

/-- The type of a name that stands on a line. -/
theorem PKG_TYPE_line {line : CString} (hline : line ∈ document.lines) :
    PKG_TYPE host files (lineValue line) = fileType (lineValue line) := by
  have hseparators : ∀ b ∈ lineValue line, fieldSeparator b = false :=
    fun b hb => (mem_lineValue hb).2
  have hnewline : newline ∉ lineValue line :=
    fun hmem => (PackagesDocument.line_bytes hline).2 (mem_lineValue hmem).1
  have hecho : echo (words host files (lineValue line)) = lineValue line ++ [newline] := by
    by_cases hne : lineValue line = []
    · rw [hne]
      rfl
    · rw [words, fields_word hne hseparators, List.flatMap_singleton,
        (h.values line hline).2 files hfiles,
        echo_of_escapeFree (List.forall_mem_singleton.mpr (h.values line hline).1)
          (by simpa using (h.options line hline).2), List.intercalate_singleton]
  have hnil : ([] : CString).rtakeWhile (· != charByte '.') = [] := rfl
  have hsuffix : fileType (lineValue line) <:+ lineValue line := List.rtakeWhile_suffix _ _
  have hself : commandSubstitution (fileType (lineValue line)) = fileType (lineValue line) := by
    refine commandSubstitution_eq_self (fun hmem => ?_) fun hmem => hnewline (hsuffix.subset hmem)
    exact (PackagesDocument.line_bytes hline).1 (mem_lineValue (hsuffix.subset hmem)).1
  rw [PKG_TYPE, hecho, eachLine, List.splitOn_append_cons_self_of_not_mem hnewline,
    List.splitOn_nil, List.map_cons, List.map_singleton, List.intercalate_cons_cons,
    List.intercalate_singleton, hnil, List.append_nil, commandSubstitution_newline]
  exact hself

/-- The test for a type. -/
theorem testEqual_fileType {name : CString} (hname : name ∈ document.filenames)
    (hseparators : ∀ b ∈ name, fieldSeparator b = false) {literal : CString}
    (hliteral : literal ≠ []) :
    testEqual host literal (words host files (fileType name)) = true ↔
      fileType name = literal := by
  have hsuffix : fileType name <:+ name := List.rtakeWhile_suffix _ _
  by_cases hne : fileType name = []
  · have htest : testEqual host literal (words host files []) = false := h.test literal
    rw [hne, htest]
    simp [Ne.symm hliteral]
  · rw [words, fields_word hne fun b hb => hseparators b (hsuffix.subset hb),
      List.flatMap_singleton, (h.filenames name hname).2.2 files hfiles, testEqual, beq_iff_eq]

end

section

variable {host : Host} {document : PackagesDocument} (h : host.ShowsAsWritten document)
  {files : List CString} {name : CString} (hfiles : files ++ [name] <+: document.filenames)

include h hfiles

/-- A package whose name stands on a line can be installed when the tools for its type are on the
machine. -/
theorem package_installation_line {line : CString} (hline : line ∈ document.lines)
    (hvalue : lineValue line = name) :
    package_installation host (files ++ [name]) (PKG_TYPE host files name) = true ↔
      fileType name = ascii "deb" ∧ host.dpkg = true ∧ host.apt_get = true ∨
        fileType name = ascii "rpm" ∧ host.yum = true := by
  have hname : name ∈ document.filenames := hfiles.subset (by simp)
  have hfront : files <+: document.filenames := (List.prefix_append files [name]).trans hfiles
  have hseparators : ∀ b ∈ name, fieldSeparator b = false := by
    rw [← hvalue]
    exact fun b hb => (mem_lineValue hb).2
  have htype : PKG_TYPE host files name = fileType name := by
    rw [← hvalue]
    exact PKG_TYPE_line h hfront hline
  have hdeb : testEqual host (ascii "deb") (words host (files ++ [name]) (fileType name)) = true ↔
      fileType name = ascii "deb" := testEqual_fileType h hfiles hname hseparators (by decide)
  have hrpm : testEqual host (ascii "rpm") (words host (files ++ [name]) (fileType name)) = true ↔
      fileType name = ascii "rpm" := testEqual_fileType h hfiles hname hseparators (by decide)
  have hother : ascii "deb" ≠ ascii "rpm" := by decide
  rw [htype, package_installation]
  by_cases hisDeb : fileType name = ascii "deb"
  · rw [if_pos (hdeb.mpr hisDeb), hisDeb]
    simp [hother]
  · rw [if_neg fun heq => hisDeb (hdeb.mp heq)]
    by_cases hisRpm : fileType name = ascii "rpm"
    · rw [if_pos (hrpm.mpr hisRpm), hisRpm]
      simp [Ne.symm hother]
    · rw [if_neg fun heq => hisRpm (hrpm.mp heq)]
      simp [hisDeb, hisRpm]

omit hfiles in
/-- A package without a name cannot be installed. -/
theorem package_installation_nil (written : List CString) :
    package_installation host written (PKG_TYPE host files []) = false := by
  have htype : PKG_TYPE host files [] = [] := rfl
  have htest : ∀ literal, testEqual host literal (words host written []) = false := h.test
  rw [htype, package_installation, htest, htest]
  rfl

end

/-! ## Blocks of lines -/

section

variable {host : Host} {document : PackagesDocument} (h : host.ShowsAsWritten document)

include h

/-- The lines that install a package. -/
theorem packageBlock_iff {files block : List CString} {package : Package}
    (hfiles : files ++ [package.filename] <+: document.filenames)
    (hblock : block <:+: document.lines) :
    PackageBlock host files package (block.map unquoted) ↔
      PackageLines host package block ∧ host.Takes package.filename := by
  have hfront : files <+: document.filenames :=
    (List.prefix_append files [package.filename]).trans hfiles
  have hname : package.filename ∈ document.filenames := hfiles.subset (by simp)
  have hmem : ∀ line ∈ block, line ∈ document.lines := fun line hline => hblock.subset hline
  have hbraces : ∀ k, blockBraces host files ((block.map unquoted).take k) =
      depth (block.take k) := by
    intro k
    rw [← List.map_take]
    exact blockBraces_lines h hfront fun line hline => hmem line (List.mem_of_mem_take hline)
  have hcontent : echo (contentWords host files (blockText host files (block.map unquoted))) =
      [blank].intercalate (lineContents block) ++ [newline] := by
    rw [contentWords_lines h hfront hblock, echo_contents h hblock]
  -- the line on which the name stands
  have hstands : ∀ {rest}, keyValues (ascii "\"filename\"") block = package.filename :: rest →
      ∃ line ∈ block, lineValue line = package.filename := fun hvalues =>
    exists_line_of_keyValues (hvalues ▸ List.mem_cons_self)
  constructor
  · intro hb
    have hnamed : package.filename ≠ [] := by
      intro hnil
      have hinstalls := hb.installs
      rw [hnil, package_installation_nil h] at hinstalls
      cases hinstalls
    obtain ⟨rest, hvalues, hrest⟩ :=
      (member_filename h hfront hblock hname hnamed).mp hb.filename
    obtain ⟨line, hline, hvalue⟩ := hstands hvalues
    obtain ⟨first, others, hsplit, hbrackets⟩ := hb.starts
    obtain ⟨start, lines, rfl, rfl, -⟩ := List.map_eq_cons_iff.mp hsplit
    have hclosed := hb.closed
    rw [blockBraces_lines h hfront hmem] at hclosed
    have hshown := hb.content_shown
    rw [contentWords_lines h hfront hblock, testEmpty_lineContents] at hshown
    have hdecoded := hb.content
    rw [hcontent] at hdecoded
    refine ⟨⟨⟨start, lines, rfl, ?_⟩, ?_, hclosed, ⟨rest, hvalues, hrest⟩, hshown.1, hshown.2,
      hdecoded⟩, hb.created, ?_⟩
    · exact (brackets_line h hfront (hmem start List.mem_cons_self)).mp hbrackets
    · intro k hk hlength
      rw [← hbraces]
      exact hb.opened k hk (by simpa using hlength)
    · exact (package_installation_line h hfiles (hmem line hline) hvalue).mp hb.installs
  · rintro ⟨hl, htakes⟩
    obtain ⟨rest, hvalues, hrest⟩ := hl.filename
    obtain ⟨line, hline, hvalue⟩ := hstands hvalues
    refine ⟨?_, ?_, ?_, ?_, ?_, ?_, htakes.1, ?_⟩
    · obtain ⟨start, lines, rfl, hbrackets⟩ := hl.starts
      exact ⟨unquoted start, lines.map unquoted, rfl,
        (brackets_line h hfront (hmem start List.mem_cons_self)).mpr hbrackets⟩
    · intro k hk hlength
      rw [hbraces]
      exact hl.opened k hk (by simpa using hlength)
    · rw [blockBraces_lines h hfront hmem]
      exact hl.closed
    · exact (member_filename h hfront hblock hname htakes.ne_nil).mpr ⟨rest, hvalues, hrest⟩
    · rw [contentWords_lines h hfront hblock, testEmpty_lineContents]
      exact ⟨hl.content_shown, hl.content_test⟩
    · rw [hcontent]
      exact hl.content
    · exact (package_installation_line h hfiles (hmem line hline) hvalue).mpr htakes.2

/-- Lines of the document that the loop divides into blocks are divided so as they are written, and
the packages can be installed. -/
theorem blocks_iff {files lines : List CString} {packages : List Package}
    (hfiles : files ++ packages.map Package.filename = document.filenames)
    (hlines : lines <:+ document.lines) :
    Blocks host files (lines.map unquoted) packages ↔
      LaidOut host lines packages ∧ ∀ package ∈ packages, host.Takes package.filename := by
  have hnext : ∀ {files package packages},
      files ++ (package :: packages).map Package.filename = document.filenames →
        files ++ [package.filename] <+: document.filenames ∧
          (files ++ [package.filename]) ++ packages.map Package.filename =
            document.filenames := by
    intro files package packages hfiles
    have hsplit : (files ++ [package.filename]) ++ packages.map Package.filename =
        document.filenames := by
      rw [← hfiles, List.append_assoc, List.map_cons, List.singleton_append]
    exact ⟨⟨_, hsplit⟩, hsplit⟩
  constructor
  · intro hb
    generalize hdelivered : lines.map unquoted = delivered at hb
    induction hb generalizing lines with
    | done =>
        rw [List.map_eq_nil_iff] at hdelivered
        rw [hdelivered]
        exact ⟨LaidOut.done, by simp⟩
    | outside hline _ ih =>
        obtain ⟨line, rest, rfl, rfl, hrest⟩ := List.map_eq_cons_iff.mp hdelivered
        have hfront : _ <+: document.filenames := ⟨_, hfiles⟩
        have hin : line ∈ document.lines := hlines.subset List.mem_cons_self
        obtain ⟨hlaid, htakes⟩ := ih hfiles ((List.suffix_cons line rest).trans hlines) hrest
        refine ⟨LaidOut.outside ?_ hlaid, htakes⟩
        rw [ne_eq, brackets_line h hfront hin, not_and_or, not_not, not_not] at hline
        exact hline
    | @package files block _ package packages hblock _ ih =>
        obtain ⟨front, rest, rfl, rfl, hrest⟩ := List.map_eq_append_iff.mp hdelivered
        obtain ⟨hfirst, hsplit⟩ := hnext hfiles
        obtain ⟨hlaid, htakes⟩ := ih hsplit ((List.suffix_append front rest).trans hlines) hrest
        have hinfix : front <:+: document.lines :=
          (List.prefix_append front rest).isInfix.trans hlines.isInfix
        obtain ⟨hpackage, htake⟩ := (packageBlock_iff h hfirst hinfix).mp hblock
        exact ⟨LaidOut.package hpackage hlaid, List.forall_mem_cons.mpr ⟨htake, htakes⟩⟩
  · rintro ⟨hd, htakes⟩
    induction hd generalizing files with
    | done => exact Blocks.done
    | @outside line rest packages hline _ ih =>
        have hfront : files <+: document.filenames := ⟨_, hfiles⟩
        have hin : line ∈ document.lines := hlines.subset List.mem_cons_self
        refine Blocks.outside ?_ (ih hfiles ((List.suffix_cons line rest).trans hlines) htakes)
        rw [ne_eq, brackets_line h hfront hin, not_and_or, not_not, not_not]
        exact hline
    | @package block rest package packages hblock _ ih =>
        obtain ⟨hfirst, hsplit⟩ := hnext hfiles
        rw [List.forall_mem_cons] at htakes
        have hinfix : block <:+: document.lines :=
          (List.prefix_append block rest).isInfix.trans hlines.isInfix
        have hrest := ih hsplit ((List.suffix_append block rest).trans hlines) htakes.2
        rw [List.map_append]
        exact Blocks.package ((packageBlock_iff h hfirst hinfix).mpr ⟨hblock, htakes.1⟩) hrest

end

/-! ## Documents of plain bytes -/

/-- `grep` does not take lines of printable characters for binary. -/
theorem Host.Documented.text_lines {host : Host} (hhost : host.Documented)
    {block : List CString}
    (hblock : ∀ line ∈ block, ∀ b ∈ line, printableByte b = true ∨ fieldSeparator b = true) :
    host.binary (unlines newline (block.map lineText)) = false ∧
      host.binary (newline :: unlines newline (block.map lineText)) = false := by
  have hbytes : ∀ b ∈ unlines newline (block.map lineText),
      printableByte b = true ∨ b = newline := by
    intro b hb
    rcases mem_unlines hb with hend | ⟨text, htext, hmem⟩
    · exact Or.inr hend
    · obtain ⟨line, hline, rfl⟩ := List.mem_map.mp htext
      rcases mem_lineText hmem with rfl | ⟨hin, hseparator⟩
      · exact Or.inl rfl
      · refine Or.inl ((hblock line hline b hin).resolve_right fun hseparates => ?_)
        rw [hseparator] at hseparates
        cases hseparates
  exact ⟨hhost.text _ hbytes, hhost.text _ (List.forall_mem_cons.mpr ⟨Or.inr rfl, hbytes⟩)⟩

/-- The tools show lines of printable characters as they are written, when there is no backslash, no
star and no question mark on them, and not both square brackets. -/
theorem Host.Documented.showsAsWritten {host : Host} (hhost : host.Documented)
    (htest : ∀ literal, host.test [ascii "=", literal] = false) {document : PackagesDocument}
    (hlines : ∀ line ∈ document.lines, ∀ b ∈ line, wordByte b = true ∨ fieldSeparator b = true)
    (hbrackets : ∀ line ∈ document.lines, charByte '[' ∉ line ∨ charByte ']' ∉ line)
    (hoptions : ∀ line ∈ document.lines,
      (lineWords line).head? ≠ some (ascii "-n") ∧ lineValue line ≠ ascii "-n")
    (hnames : ∀ name ∈ document.filenames, ∀ b ∈ name, plainByte b = true) :
    host.ShowsAsWritten document := by
  have hleaves : ∀ word, (∀ b ∈ word, wordByte b = true) →
      charByte '[' ∉ word ∨ charByte ']' ∉ word → host.Leaves document.filenames word := by
    intro word hword hbracket
    refine ⟨escapeFree_of_not_mem fun hslash => (wordByte_spec (hword _ hslash)).2.1 rfl, ?_⟩
    intro files _
    refine hhost.glob_word files word (fun b hb => ?_) hbracket
    obtain ⟨-, hslash, hstar, hquestion, -⟩ := wordByte_spec (hword b hb)
    exact ⟨hstar, hquestion, hslash⟩
  -- a text of bytes of a line that are no separators
  have hpart : ∀ line ∈ document.lines, ∀ text : CString,
      (∀ b ∈ text, b ∈ line ∧ fieldSeparator b = false) →
        host.Leaves document.filenames text := by
    intro line hline text htext
    apply hleaves
    · intro b hb
      obtain ⟨hin, hseparator⟩ := htext b hb
      refine (hlines line hline b hin).resolve_right fun hseparates => ?_
      rw [hseparator] at hseparates
      cases hseparates
    · exact (hbrackets line hline).imp (fun hnot hmem => hnot (htext _ hmem).1)
        fun hnot hmem => hnot (htext _ hmem).1
  refine ⟨?_, ?_, hoptions, ?_, ?_, htest⟩
  · intro line hline word hword
    exact hpart line hline word fun b hb =>
      ⟨mem_of_mem_unquoted (mem_of_mem_fields hword hb), (mem_fields hword).2 b hb⟩
  · exact fun line hline => hpart line hline _ fun b hb => mem_lineValue hb
  · intro name hname
    have hsuffix : fileType name <:+ name := List.rtakeWhile_suffix _ _
    refine ⟨fun hnewline => ?_, hleaves _ (fun b hb => ?_) (Or.inl fun hbracket => ?_)⟩
    · exact absurd (hnames name hname _ hnewline) (by decide)
    · exact (plainByte_spec b (hnames name hname b (hsuffix.subset hb))).1
    · exact absurd (hnames name hname _ (hsuffix.subset hbracket)) (by decide)
  · intro block hblock
    apply hhost.text_lines
    intro line hline b hb
    exact (hlines line (hblock.subset hline) b hb).imp_left fun hword => (wordByte_spec hword).1

/-! ## One package in two layouts -/

/-- An object with a nested object for a package. -/
def exampleObject : Json :=
  .object [("package".toList, .object
    [("filename".toList, .string "a.deb".toList), ("content".toList, .string "QQ==".toList)])]

/-- A package with one byte. -/
def examplePackage : Package where
  filename := ascii "a.deb"
  content := ascii "QQ=="
  base64 := by decide

/-- The object holds the package. -/
theorem exampleObject_holds : List.Forall₂ HoldsPackage [exampleObject] [examplePackage] := by
  refine List.Forall₂.cons ?_ List.Forall₂.nil
  exact ⟨_, "package".toList, _, "a.deb".toList, "QQ==".toList, rfl, List.mem_cons_self,
    List.mem_cons_self, List.mem_cons_of_mem _ List.mem_cons_self, by decide, by decide⟩

/-- An array of one package object, on six lines. -/
def laidOutLines : List TokenLine :=
  [markLine 0 [charByte '['],
    ⟨0, [[.mark 123, .string "package".toList, .mark (charByte ':'), .mark 123]]⟩,
    memberLine 1 "filename" (ascii "a.deb") [charByte ','],
    memberLine 1 "content" (ascii "QQ==") [],
    markLine 0 [125, 125],
    markLine 0 [charByte ']']]

/-- The document of these lines. -/
def laidOutDocument : PackagesDocument where
  text := laidOutLines.flatMap fun line => line.text ++ [newline]
  objects := [exampleObject]
  packages := [examplePackage]
  isText := by
    have hplain : ∀ line ∈ laidOutLines, ∀ group ∈ line.groups, ∀ token ∈ group,
        token.plain = true := by
      decide
    have htokens : (laidOutLines.flatMap fun line => line.groups.flatten) =
        (Json.array [exampleObject]).tokens := rfl
    have hlayout := layout_lines hplain
    rw [htokens] at hlayout
    exact hlayout
  holds := exampleObject_holds

/-- The lines of the document. -/
theorem laidOutDocument_lines :
    laidOutDocument.lines = laidOutLines.map TokenLine.text := by
  decide +kernel

/-- Its four lines in the middle show the package. -/
theorem packageLines_laidOut :
    PackageLines exampleHost examplePackage ((laidOutLines.drop 1).dropLast.map TokenLine.text) where
  starts := ⟨_, _, rfl, by decide +kernel, by decide +kernel⟩
  opened k hpos hk := by
    have hlength : k < 4 := hk
    interval_cases k <;> decide +kernel
  closed := by decide +kernel
  filename := ⟨[], by decide +kernel, by simp⟩
  content_shown := by decide +kernel
  content_test := Or.inl (by decide +kernel)
  content := by decide +kernel

/-- An array of one package object, on one line. -/
def compactDocument : PackagesDocument where
  text := (Json.array [exampleObject]).tokens.flatMap Token.plainText ++ [newline]
  objects := [exampleObject]
  packages := [examplePackage]
  isText := by
    have hplain : ∀ token ∈ (Json.array [exampleObject]).tokens, token.plain = true := by
      decide
    have hline := layout_plainText hplain
    have hend : Layout [] [newline] := Layout.nil (List.forall_mem_singleton.mpr rfl)
    have htext := hline.append hend
    rw [List.append_nil] at htext
    exact htext
  holds := exampleObject_holds

/-- The shell shows the document as it is written. -/
theorem compactDocument_showsAsWritten : exampleHost.ShowsAsWritten compactDocument where
  words line hline word hword := by
    have hfree : ∀ line ∈ compactDocument.lines, ∀ word ∈ lineWords line, EscapeFree word := by
      decide +kernel
    exact ⟨hfree line hline word hword, fun _ _ => rfl⟩
  values line hline := by
    have hfree : ∀ line ∈ compactDocument.lines, EscapeFree (lineValue line) := by
      decide +kernel
    exact ⟨hfree line hline, fun _ _ => rfl⟩
  options := by decide +kernel
  filenames name hname := by
    have hfree : ∀ name ∈ compactDocument.filenames,
        newline ∉ name ∧ EscapeFree (fileType name) := by
      decide +kernel
    exact ⟨(hfree name hname).1, (hfree name hname).2, fun _ _ => rfl⟩
  text block hblock := by
    have hbytes : ∀ line ∈ compactDocument.lines, ∀ b ∈ line,
        printableByte b = true ∨ fieldSeparator b = true := by
      decide +kernel
    exact exampleHost_documented.text_lines fun line hline => hbytes line (hblock.subset hline)
  test _ := rfl

end AlertProbe
