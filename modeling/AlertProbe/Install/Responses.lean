import AlertProbe.Install.PlainLines
import AlertProbe.Model.Http

/-!
# Responses of the API

The installer divides a response at its first blank line.  A response without
chunks comes through as it was sent.  Of a chunked one it takes off the first
line and the last three, which are the framing of a response with one chunk whose
data end with a newline, and of no other.

Main results:

- Theorem `header_append_body_iff`: when the two files make up the response.
- Theorem `split_chunked_iff`: which chunked responses come through.
- Theorem `receive_response`: which status lines are accepted, and what is
  delivered then.
- Theorem `Head.accepted_iff`: an ordinary response is accepted by its code.
-/

namespace AlertProbe

open Foundations

/-! ## Dividing a response -/

/-- Behind a match something is missing. -/
theorem flatten_behind_ne {lines : List CString} (hlines : ∀ line ∈ lines, line ≠ [])
    (hne : lines ≠ []) (p : CString → Bool) : (behind p lines).flatten ≠ lines.flatten := by
  intro heq
  have hall : (through p lines).flatten ++ (behind p lines).flatten = lines.flatten := by
    rw [← List.flatten_append, through_append_behind]
  rw [heq, List.append_left_eq_self] at hall
  cases lines with
  | nil => exact hne rfl
  | cons line lines =>
      have hfirst : line ∈ through p (line :: lines) := by
        rw [through]
        split <;> exact List.mem_cons_self
      exact hlines line List.mem_cons_self (List.flatten_eq_nil_iff.mp hall line hfirst)

/-- The part of a response up to its first blank line.  The lines are without their newlines;
`returns` carriage returns stand on the blank line. -/
structure Head where
  lines : List CString
  returns : Nat
  ne_nil : lines ≠ []
  plain : ∀ line ∈ lines, newline ∉ line ∧ ∃ b ∈ line, b ≠ carriageReturn

namespace Head

/-- The bytes. -/
def text (h : Head) : CString :=
  unlines newline (h.lines ++ [List.replicate h.returns carriageReturn])

/-- The lines with their newlines, less the blank one. -/
def ended (h : Head) : List CString :=
  h.lines.map fun line => line ++ [newline]

/-- The blank line. -/
def last (h : Head) : CString :=
  List.replicate h.returns carriageReturn ++ [newline]

theorem text_eq (h : Head) : h.text = (h.ended ++ [h.last]).flatten := by
  simp [text, ended, last, unlines, List.flatMap_def, List.map_append]

theorem ended_append_last (h : Head) : Ended newline (h.ended ++ [h.last]) := by
  intro line hline
  rcases List.mem_append.mp hline with hmem | hmem
  · rcases List.mem_map.mp hmem with ⟨content, hcontent, rfl⟩
    exact ⟨content, rfl, (h.plain content hcontent).1⟩
  · rw [List.mem_singleton.mp hmem]
    refine ⟨_, rfl, ?_⟩
    intro hnewline
    exact absurd (List.eq_of_mem_replicate hnewline) (by decide)

theorem blankLine_ended (h : Head) : ∀ line ∈ h.ended, blankLine line = false := by
  intro line hline
  rcases List.mem_map.mp hline with ⟨content, hcontent, rfl⟩
  rcases h.plain content hcontent with ⟨hnewline, b, hb, hreturn⟩
  have hne : b ≠ newline := fun heq => hnewline (heq ▸ hb)
  rw [blankLine, List.all_eq_false]
  exact ⟨b, List.mem_append_left _ hb, by simp [hreturn, hne]⟩

theorem blankLine_last (h : Head) : blankLine h.last = true := by
  rw [blankLine, List.all_eq_true]
  intro b hb
  rcases List.mem_append.mp hb with hmem | hmem
  · simp [List.eq_of_mem_replicate hmem]
  · simp [List.mem_singleton.mp hmem]

/-- The lines of a response. -/
theorem textLines_append (h : Head) (body : CString) :
    textLines newline (h.text ++ body) = h.ended ++ h.last :: textLines newline body := by
  rw [text_eq, Foundations.textLines_append h.ended_append_last, List.append_assoc]
  rfl

/-- The header file of a response. -/
theorem onLines_through (h : Head) (body : CString) :
    onLines newline (through blankLine) (h.text ++ body) = h.text := by
  rw [onLines, h.textLines_append, through_append h.blankLine_ended h.blankLine_last, text_eq]

/-- What stands behind the header. -/
theorem onLines_behindRange (h : Head) (body : CString) :
    onLines newline (behindRange blankLine) (h.text ++ body) = body := by
  have hbehind : behindRange blankLine (h.ended ++ h.last :: textLines newline body) =
      textLines newline body := by
    have hended := h.blankLine_ended
    cases hlines : h.ended with
    | nil =>
        rw [ended, List.map_eq_nil_iff] at hlines
        exact absurd hlines h.ne_nil
    | cons line lines =>
        rw [hlines] at hended
        rw [List.cons_append, behindRange_cons (hended line List.mem_cons_self),
          ← List.cons_append, behind_append hended h.blankLine_last]
  rw [onLines, h.textLines_append, hbehind, flatten_textLines]

end Head

/-- A response that is not chunked comes through, whatever its body is. -/
theorem split_unchunked {h : Head} (hchunked : chunked h.text = false) (body : CString) :
    split_http_file (h.text ++ body) = ⟨h.text, body⟩ := by
  rw [split_http_file, h.onLines_through, h.onLines_behindRange, hchunked]
  rfl

/-! ## Chunks -/

/-- A carriage return and a newline. -/
def crlf : CString := [carriageReturn, newline]

/-- A chunk of a response: the line with its size, and its data. -/
structure Chunk where
  size : CString
  data : CString
  size_line : newline ∉ size
  data_ne_nil : data ≠ []

/-- A chunk as it is sent. -/
def Chunk.text (c : Chunk) : CString :=
  c.size ++ crlf ++ c.data ++ crlf

/-- The body of a chunked response. -/
def chunkedBody (chunks : List Chunk) : CString :=
  chunks.flatMap Chunk.text ++ (ascii "0" ++ crlf) ++ crlf

/-- The data of a chunked response. -/
def chunkedData (chunks : List Chunk) : CString :=
  chunks.flatMap Chunk.data

/-- What the installer makes of ended lines. -/
theorem unchunk_lines {h : Head} {lines : List CString} (hlines : Ended newline lines) :
    unchunk (h.text ++ lines.flatten) = ((lines.rdrop 3).tail).flatten := by
  have hfewer : Ended newline (lines.rdrop 3) := by
    intro line hline
    exact hlines line ((List.take_subset _ _) hline)
  have hbehind : onLines newline (List.rdrop · 3) lines.flatten = (lines.rdrop 3).flatten := by
    rw [onLines, textLines_flatten hlines]
  rw [unchunk, h.onLines_behindRange, hbehind, onLines, textLines_flatten hfewer]

/-- The newlines of a chunked body: two for each chunk, two at the end, and those in the
data. -/
theorem count_chunkedBody (chunks : List Chunk) :
    (chunkedBody chunks).count newline =
      2 * chunks.length + 2 + (chunkedData chunks).count newline := by
  have hcrlf : crlf.count newline = 1 := rfl
  have hzero : (ascii "0").count newline = 0 := rfl
  have hchunks : (chunks.flatMap Chunk.text).count newline =
      2 * chunks.length + (chunkedData chunks).count newline := by
    induction chunks with
    | nil => rfl
    | cons c chunks ih =>
        have hsize := List.count_eq_zero_of_not_mem c.size_line
        simp only [chunkedData, List.flatMap_cons, List.count_append, Chunk.text, hsize, hcrlf,
          List.length_cons] at ih ⊢
        omega
  simp only [chunkedBody, List.count_append, hchunks, hcrlf, hzero]
  omega

/-- The lines of a chunked body are ended. -/
theorem exists_lines_chunkedBody (chunks : List Chunk) :
    ∃ lines, Ended newline lines ∧ chunkedBody chunks = lines.flatten :=
  exists_ended_of_suffix ⟨chunks.flatMap Chunk.text ++ (ascii "0" ++ crlf) ++ [carriageReturn],
    by simp [chunkedBody, crlf]⟩

/-- A body with several chunks does not come through: the size lines between them have newlines
that the data have not. -/
theorem unchunk_ne (h : Head) (chunks : List Chunk) (hmany : 2 ≤ chunks.length) :
    unchunk (h.text ++ chunkedBody chunks) ≠ chunkedData chunks := by
  intro heq
  rcases exists_lines_chunkedBody chunks with ⟨lines, hlines, hbody⟩
  have hrest : Ended newline (lines.rdrop 3).tail := by
    intro line hline
    exact hlines line ((List.take_subset _ _) (List.mem_of_mem_tail hline))
  have htotal := count_chunkedBody chunks
  rw [hbody, count_separator hlines] at htotal
  have hcount := congrArg (List.count newline) heq
  rw [hbody, unchunk_lines hlines, count_separator hrest, List.length_tail,
    List.rdrop, List.length_take] at hcount
  omega

/-- Of a body with one chunk the last line of the data is lost, if it is not ended. -/
theorem unchunk_singleton_iff {h : Head} (c : Chunk) :
    unchunk (h.text ++ chunkedBody [c]) = c.data ↔ [newline] <:+ c.data := by
  rcases exists_ended newline c.data with ⟨lines, last, hlines, hlast, hdata⟩
  have hbody : chunkedBody [c] =
      ((c.size ++ crlf) :: (lines ++ [last ++ crlf, ascii "0" ++ crlf, crlf])).flatten := by
    simp [chunkedBody, Chunk.text, hdata]
  have hreturn : newline ∉ [carriageReturn] := by decide
  have hall : Ended newline
      ((c.size ++ crlf) :: (lines ++ [last ++ crlf, ascii "0" ++ crlf, crlf])) := by
    intro line hline
    rcases List.mem_cons.mp hline with rfl | hmem
    · refine ⟨c.size ++ [carriageReturn], by simp [crlf], ?_⟩
      simp [c.size_line, hreturn]
    · rcases List.mem_append.mp hmem with hmem | hmem
      · exact hlines line hmem
      · simp only [List.mem_cons, List.not_mem_nil, or_false] at hmem
        rcases hmem with rfl | rfl | rfl
        · refine ⟨last ++ [carriageReturn], by simp [crlf], ?_⟩
          simp [hlast, hreturn]
        · exact ⟨ascii "0" ++ [carriageReturn], rfl, by decide⟩
        · exact ⟨[carriageReturn], rfl, hreturn⟩
  have hdrop := rdrop_append ((c.size ++ crlf) :: lines)
    [last ++ crlf, ascii "0" ++ crlf, crlf] (n := 3) rfl
  have hkept : (((c.size ++ crlf) :: (lines ++ [last ++ crlf, ascii "0" ++ crlf, crlf])).rdrop
      3).tail = lines := by
    rw [← List.cons_append, hdrop, List.tail_cons]
  have hne : lines.flatten ++ last ≠ [] := hdata ▸ c.data_ne_nil
  rw [hbody, unchunk_lines hall, hkept, hdata, ← last_eq_nil_iff hlines hlast hne,
    List.self_eq_append_right]

/-- A chunked response comes through exactly when it has no chunk, or one whose data end with a
newline. -/
theorem split_chunked_iff {h : Head} (hchunked : chunked h.text = true) (chunks : List Chunk) :
    split_http_file (h.text ++ chunkedBody chunks) = ⟨h.text, chunkedData chunks⟩ ↔
      chunks = [] ∨ ∃ c, chunks = [c] ∧ [newline] <:+ c.data := by
  rw [split_http_file, h.onLines_through, if_pos hchunked, HttpFiles.mk.injEq,
    and_iff_right rfl]
  cases chunks with
  | nil =>
      have hended : Ended newline [ascii "0" ++ crlf, crlf] := by
        intro line hline
        simp only [List.mem_cons, List.not_mem_nil, or_false] at hline
        rcases hline with rfl | rfl
        · exact ⟨ascii "0" ++ [carriageReturn], rfl, by decide⟩
        · exact ⟨[carriageReturn], rfl, by decide⟩
      have hbody : chunkedBody [] = [ascii "0" ++ crlf, crlf].flatten := rfl
      have hempty : unchunk (h.text ++ chunkedBody []) = [] := by
        rw [hbody, unchunk_lines hended]
        rfl
      simp [hempty, chunkedData]
  | cons c chunks =>
      cases chunks with
      | nil =>
          have hdata : chunkedData [c] = c.data := by simp [chunkedData]
          rw [hdata, unchunk_singleton_iff]
          simp
      | cons d chunks =>
          have hne := unchunk_ne h (c :: d :: chunks) (by simp)
          simp [hne]

/-- A header that announces chunks. -/
def chunkedHead : Head where
  lines := [ascii "HTTP/1.1 200 OK\r", ascii "Transfer-Encoding: chunked\r"]
  returns := 1
  ne_nil := List.cons_ne_nil _ _
  plain := by decide

/-- A chunk with a bracket and a newline. -/
def bracketChunk (bracket : UInt8) : Chunk where
  size := ascii "2"
  data := [bracket, newline]
  size_line := by decide
  data_ne_nil := List.cons_ne_nil _ _

/-- The same data come through in one chunk only. -/
theorem split_chunked_brackets :
    split_http_file (chunkedHead.text ++ chunkedBody [bracketChunk (charByte '[')]) =
        ⟨chunkedHead.text, [charByte '[', newline]⟩ ∧
      split_http_file (chunkedHead.text ++
          chunkedBody [bracketChunk (charByte '['), bracketChunk (charByte ']')]) ≠
        ⟨chunkedHead.text, [charByte '[', newline, charByte ']', newline]⟩ := by
  have hchunked : chunked chunkedHead.text = true := by decide +kernel
  constructor
  · exact (split_chunked_iff hchunked [bracketChunk (charByte '[')]).mpr
      (Or.inr ⟨_, rfl, ⟨[charByte '['], rfl⟩⟩)
  · intro heq
    rcases (split_chunked_iff hchunked
      [bracketChunk (charByte '['), bracketChunk (charByte ']')]).mp heq with hnil | ⟨c, hc, -⟩
    · cases hnil
    · cases hc

/-! ## Status codes -/

/-- The last number between two blanks behind the `HTTP/` that a line starts with. -/
def statusCode (line : CString) : Option CString :=
  if (ascii "HTTP/").isPrefixOf line then lastNumber (line.drop 5) else none

namespace Head

/-- The lines of the header with `HTTP/`. -/
def statusLines (h : Head) : List CString :=
  h.lines.filter (hasMatch (ascii "HTTP/"))

/-- The numbers on these lines; between two blanks that follow each other there is none. -/
def statusCodes (h : Head) : List CString :=
  (h.statusLines.filterMap statusCode).filter (· != [])

/-- Every line with `HTTP/` starts with it and has a number between two blanks, which may be
empty on all but one of them; and if there is one number, of less than 64 bits, it is one of
success. -/
structure Accepted (h : Head) : Prop where
  each : ∀ line ∈ h.statusLines, (statusCode line).isSome
  any : h.statusCodes ≠ []
  success : ∀ code n, h.statusCodes = [code] → natural code = some (n, []) → n < 2 ^ 63 →
    200 ≤ n ∧ n < 300

end Head

/-- A line that starts with no digit, blank and hyphen, and in which nothing is special to the
shell: no NUL, tab, backslash and pattern. -/
structure StatusText (line : CString) : Prop where
  start : ∀ b ∈ line.head?, isDigit b = false ∧ b ≠ blank ∧ b ≠ charByte '-'
  bytes : ∀ b ∈ line, b ≠ 0 ∧ b ≠ 9 ∧ b ≠ backslash ∧ b ≠ charByte '*' ∧ b ≠ charByte '?' ∧
    b ≠ charByte '['

instance (line : CString) : Decidable (StatusText line) :=
  decidable_of_iff (_ ∧ _) ⟨fun h => ⟨h.1, h.2⟩, fun h => ⟨h.start, h.bytes⟩⟩

/-- Documented behaviour of `[`: to compare something else than one number of less than 64 bits
is an error, and no success. -/
def Host.ComparesNumbers (host : Host) : Prop :=
  ∀ codes : List CString, (∀ code ∈ codes, code ≠ [] ∧ ∀ b ∈ code, isDigit b = true) →
    (∀ code n, codes = [code] → natural code = some (n, []) → 2 ^ 63 ≤ n) →
      host.test (codes ++ [ascii "-lt", ascii "200", ascii "-o"] ++ codes ++
        [ascii "-ge", ascii "300"]) = false

/-! ### What `sed` makes of a line -/

/-- What the two substitutions make of a line. -/
def statusValue (line : CString) : CString :=
  (Substitution.single blank []).apply (statusNumber line)

/-- A number between blanks consists of digits. -/
theorem isDigit_of_lastNumber {text code : CString} (h : lastNumber text = some code) :
    ∀ b ∈ code, isDigit b = true := by
  induction text with
  | nil => cases h
  | cons b rest ih =>
      rw [lastNumber] at h
      split at h
      · rename_i digits hdigits
        cases h
        exact ih hdigits
      · split at h
        · cases h
          exact fun c hc => List.mem_takeWhile_imp hc
        · cases h

/-- The number of a line consists of digits. -/
theorem isDigit_of_statusCode {line code : CString} (h : statusCode line = some code) :
    ∀ b ∈ code, isDigit b = true := by
  rw [statusCode] at h
  split at h
  · exact isDigit_of_lastNumber h
  · cases h

/-- The first substitution leaves bytes of the line and digits. -/
theorem mem_statusNumber {line : CString} {b : UInt8} (h : b ∈ statusNumber line) :
    b ∈ line ∨ isDigit b = true := by
  induction line with
  | nil => cases h
  | cons c rest ih =>
      have hstep : b ∈ c :: statusNumber rest → b ∈ c :: rest ∨ isDigit b = true := by
        intro hmem
        rcases List.mem_cons.mp hmem with rfl | hmem
        · exact Or.inl List.mem_cons_self
        · exact (ih hmem).imp_left (List.mem_cons_of_mem c)
      rw [statusNumber] at h
      split at h
      · split at h
        · rename_i digits hdigits
          exact Or.inr (isDigit_of_lastNumber hdigits b h)
        · exact hstep h
      · exact hstep h

/-- Of a line that starts with `HTTP/` and has a number, the number is left. -/
theorem statusNumber_of_some {line code : CString} (h : statusCode line = some code) :
    statusNumber line = code := by
  rw [statusCode] at h
  split at h
  · rename_i hmatch
    cases line with
    | nil => cases hmatch
    | cons b rest => rw [statusNumber, if_pos hmatch, h]
  · cases h

/-- Of every other line the first byte is left, with what follows. -/
theorem statusNumber_of_none {b : UInt8} {rest : CString} (h : statusCode (b :: rest) = none) :
    statusNumber (b :: rest) = b :: statusNumber rest := by
  rw [statusNumber]
  split
  · rename_i hmatch
    rw [statusCode, if_pos hmatch] at h
    rw [h]
  · rfl

/-- Of a line that starts with `HTTP/` and has a number, the number is left in the end. -/
theorem statusValue_of_some {line code : CString} (h : statusCode line = some code) :
    statusValue line = code := by
  rw [statusValue, statusNumber_of_some h, Substitution.apply_single_nil, List.filter_eq_self]
  intro b hb
  rw [decide_eq_true_eq]
  rintro rfl
  exact absurd (isDigit_of_statusCode h blank hb) (by decide)

/-- Of every other line with text something else than digits and an option is left. -/
theorem statusValue_of_none {line : CString} (hline : StatusText line) (hne : line ≠ [])
    (h : statusCode line = none) :
    ∃ b rest, statusValue line = b :: rest ∧ isDigit b = false ∧ b ≠ blank ∧
      b ≠ charByte '-' := by
  cases line with
  | nil => exact absurd rfl hne
  | cons b rest =>
      obtain ⟨hdigit, hblank, hhyphen⟩ := hline.start b rfl
      refine ⟨b, (statusNumber rest).filter (fun c => ¬ c = blank), ?_, hdigit, hblank, hhyphen⟩
      rw [statusValue, statusNumber_of_none h, Substitution.apply_single_nil,
        List.filter_cons_of_pos (by simpa using hblank)]

/-- The bytes that are left of a line are not special. -/
theorem StatusText.value {line : CString} (hline : StatusText line) (hnewline : newline ∉ line) :
    ∀ b ∈ statusValue line, b ≠ 0 ∧ b ≠ newline ∧ b ≠ backslash ∧ b ≠ charByte '*' ∧
      b ≠ charByte '?' ∧ b ≠ charByte '[' ∧ fieldSeparator b = false := by
  intro b hb
  rw [statusValue, Substitution.apply_single_nil, List.mem_filter, decide_eq_true_eq] at hb
  obtain ⟨hmem, hblank⟩ := hb
  rcases mem_statusNumber hmem with hmem | hdigit
  · obtain ⟨hnul, htab, hslash, hstar, hquestion, hbracket⟩ := hline.bytes b hmem
    have hline : b ≠ newline := fun heq => hnewline (heq ▸ hmem)
    exact ⟨hnul, hline, hslash, hstar, hquestion, hbracket, by
      simp [fieldSeparator, hblank, htab, hline]⟩
  · have hdigits : ∀ b, isDigit b = true → b ≠ 0 ∧ b ≠ newline ∧ b ≠ backslash ∧
        b ≠ charByte '*' ∧ b ≠ charByte '?' ∧ b ≠ charByte '[' ∧ fieldSeparator b = false := by
      decide +kernel
    exact hdigits b hdigit

/-! ### What the shell makes of the numbers -/

section

variable {host : Host}

/-- What the test with `grep` says about words: it wants a number, and nothing else. -/
theorem testDigits_iff (hhost : host.Documented) {files : List CString} {code : CString}
    {numbers : List CString} (hwords : words host files code = numbers)
    (hbytes : ∀ word ∈ numbers, word ≠ [] ∧ ∀ b ∈ word, b ≠ 0 ∧ b ≠ newline ∧ b ≠ blank ∧
      b ≠ backslash)
    (hoption : numbers.head? ≠ some (ascii "-n")) :
    testDigits host files code = true ↔
      numbers ≠ [] ∧ ∀ word ∈ numbers, ∀ b ∈ word, isDigit b = true := by
  have hecho : echo numbers = [blank].intercalate numbers ++ [newline] := by
    refine echo_of_escapeFree (fun word hword => escapeFree_of_not_mem fun hslash => ?_) hoption
    exact ((hbytes word hword).2 backslash hslash).2.2.2 rfl
  have hline : newline ∉ [blank].intercalate numbers := by
    intro hmem
    rcases mem_intercalate hmem with hblank | ⟨word, hword, hb⟩
    · exact absurd hblank (by decide)
    · exact ((hbytes word hword).2 newline hb).2.1 rfl
  have hlines : linesOf newline ([blank].intercalate numbers ++ [newline]) =
      [[blank].intercalate numbers] := by
    have hunlines : [blank].intercalate numbers ++ [newline] =
        unlines newline [[blank].intercalate numbers] := by
      simp [unlines]
    rw [hunlines, linesOf_unlines]
    intro line hmem
    rwa [List.mem_singleton.mp hmem]
  have hmatch : (([blank].intercalate numbers).all fun b => isDigit b || b == blank) = true ↔
      ∀ word ∈ numbers, ∀ b ∈ word, isDigit b = true := by
    rw [List.all_eq_true]
    constructor
    · intro hall word hword b hb
      have hmem : b ∈ [blank].intercalate numbers := mem_intercalate_of_mem hword hb
      have hdigit := hall b hmem
      rw [Bool.or_eq_true, beq_iff_eq] at hdigit
      exact hdigit.resolve_right ((hbytes word hword).2 b hb).2.2.1
    · intro hall b hb
      rcases mem_intercalate hb with rfl | ⟨word, hword, hmem⟩
      · rfl
      · rw [hall word hword b hmem, Bool.true_or]
  rw [testDigits, hwords, hecho, grepDigits, hlines]
  by_cases hdigits : ∀ word ∈ numbers, ∀ b ∈ word, isDigit b = true
  · -- the line of digits is no binary text, and is printed
    have htext : host.binary ([blank].intercalate numbers ++ [newline]) = false := by
      apply hhost.text
      intro b hb
      rcases List.mem_append.mp hb with hmem | hmem
      · rcases mem_intercalate hmem with rfl | ⟨word, hword, hmem⟩
        · exact Or.inl (by decide)
        · have hprintable : ∀ b, isDigit b = true → printableByte b = true := by decide +kernel
          exact Or.inl (hprintable b (hdigits word hword b hmem))
      · exact Or.inr (List.mem_singleton.mp hmem)
    have hnul : (0 : UInt8) ∉ [blank].intercalate numbers := by
      intro hmem
      rcases mem_intercalate hmem with hblank | ⟨word, hword, hb⟩
      · exact absurd hblank (by decide)
      · exact ((hbytes word hword).2 0 hb).1 rfl
    simp only [List.filter_cons, hmatch.mpr hdigits, if_true, List.filter_nil, htext,
      Bool.false_eq_true, if_false, unlines, List.flatMap_singleton, commandSubstitution_newline,
      commandSubstitution_eq_self hnul hline, bne_iff_ne]
    refine ⟨fun hne => ⟨?_, hdigits⟩, fun h => ?_⟩
    · rintro rfl
      exact hne rfl
    · obtain ⟨word, hword⟩ := List.exists_mem_of_ne_nil _ h.1
      obtain ⟨b, hb⟩ := List.exists_mem_of_ne_nil _ (hbytes word hword).1
      exact List.ne_nil_of_mem (mem_intercalate_of_mem hword hb)
  · have hnone : (([blank].intercalate numbers).all fun b => isDigit b || b == blank) = false :=
      Bool.not_eq_true _ ▸ fun h => hdigits (hmatch.mp h)
    simp [hnone, hdigits, unlines, commandSubstitution]

/-- What the comparison says about words that are numbers. -/
theorem testRange_iff (hcompares : host.ComparesNumbers) {codes : List CString}
    (hcodes : ∀ code ∈ codes, code ≠ [] ∧ ∀ b ∈ code, isDigit b = true) :
    testRange host codes = false ↔ ∀ code n, codes = [code] → natural code = some (n, []) →
      n < 2 ^ 63 → 200 ≤ n ∧ n < 300 := by
  by_cases hone : ∃ code n, codes = [code] ∧ natural code = some (n, []) ∧ n < 2 ^ 63
  · obtain ⟨code, n, rfl, hcode, hn⟩ := hone
    simp only [testRange, List.map_singleton, hcode, if_pos hn, Bool.or_eq_false_iff,
      decide_eq_false_iff_not]
    constructor
    · rintro ⟨hlow, hhigh⟩ code' n' hcode' hn' -
      cases hcode'
      cases hcode.symm.trans hn'
      omega
    · intro h
      have hrange := h code n rfl hcode hn
      omega
  · have hother : ∀ code n, codes = [code] → natural code = some (n, []) → 2 ^ 63 ≤ n := by
      intro code n hcode hn
      exact Nat.le_of_not_lt fun hlt => hone ⟨code, n, hcode, hn, hlt⟩
    have herror := hcompares codes hcodes hother
    have hrange : testRange host codes = false := by
      rw [testRange]
      split
      · rename_i n hmap
        obtain ⟨code, rfl, hcode⟩ := List.map_eq_singleton_iff.mp hmap
        rw [if_neg (Nat.not_lt.mpr (hother code n rfl hcode))]
        exact herror
      · exact herror
    refine iff_of_true hrange ?_
    intro code n hcode hn hlt
    exact absurd (hother code n hcode hn) (Nat.not_le.mpr hlt)

/-- The words of `HTTP_CODE` are what is left of the lines with `HTTP/`. -/
theorem words_HTTP_CODE (hhost : host.Documented) {h : Head}
    (hlines : ∀ line ∈ h.statusLines, StatusText line) (htext : host.binary h.text = false)
    (files : List CString) (name : CString) :
    words host files (HTTP_CODE host name h.text) =
      (h.statusLines.map statusValue).filter (· != []) := by
  have hplain : ∀ line ∈ h.lines ++ [List.replicate h.returns carriageReturn],
      newline ∉ line := by
    intro line hline
    rcases List.mem_append.mp hline with hmem | hmem
    · exact (h.plain line hmem).1
    · rw [List.mem_singleton.mp hmem]
      intro hnewline
      exact absurd (List.eq_of_mem_replicate hnewline) (by decide)
  have hblank : hasMatch (ascii "HTTP/") (List.replicate h.returns carriageReturn) = false := by
    rw [← Bool.not_eq_true, hasMatch_iff]
    intro hinfix
    have hslash : slash ∈ List.replicate h.returns carriageReturn :=
      hinfix.subset (by decide)
    exact absurd (List.eq_of_mem_replicate hslash) (by decide)
  have hgrep : grepStatus host name h.text = h.statusLines := by
    rw [grepStatus, htext, Head.text, linesOf_unlines hplain]
    simp [Head.statusLines, hblank]
  have hvalues : ∀ value ∈ h.statusLines.map statusValue, ∀ b ∈ value, b ≠ 0 ∧ b ≠ newline ∧
      b ≠ backslash ∧ b ≠ charByte '*' ∧ b ≠ charByte '?' ∧ b ≠ charByte '[' ∧
        fieldSeparator b = false := by
    intro value hvalue
    obtain ⟨line, hline, rfl⟩ := List.mem_map.mp hvalue
    exact (hlines line hline).value (h.plain line (List.mem_of_mem_filter hline)).1
  have hnul : (0 : UInt8) ∉ unlines newline (h.statusLines.map statusValue) := by
    intro hmem
    rcases mem_unlines hmem with hend | ⟨value, hvalue, hb⟩
    · exact absurd hend (by decide)
    · exact (hvalues value hvalue 0 hb).1 rfl
  have hfields : fields (HTTP_CODE host name h.text) =
      (h.statusLines.map statusValue).filter (· != []) := by
    have hcode : HTTP_CODE host name h.text =
        commandSubstitution (unlines newline (h.statusLines.map statusValue)) := by
      rw [HTTP_CODE, hgrep]
      rfl
    rw [hcode, fields_commandSubstitution hnul, unlines, fields_lines]
    exact fun value hvalue b hb => (hvalues value hvalue b hb).2.2.2.2.2.2
  rw [words_of_noPattern hhost, hfields]
  intro word hword
  rw [hfields] at hword
  have hword := hvalues word (List.mem_of_mem_filter hword)
  refine ⟨fun b hb => ?_, Or.inl fun hb => (hword _ hb).2.2.2.2.2.1 rfl⟩
  obtain ⟨-, -, hslash, hstar, hquestion, -⟩ := hword b hb
  exact ⟨hstar, hquestion, hslash⟩

/-- Where every line with `HTTP/` has a number, its numbers are what is left of them. -/
theorem map_statusValue {lines : List CString} (h : ∀ line ∈ lines, (statusCode line).isSome) :
    lines.map statusValue = lines.filterMap statusCode := by
  induction lines with
  | nil => rfl
  | cons line lines ih =>
      obtain ⟨code, hcode⟩ := Option.isSome_iff_exists.mp (h line List.mem_cons_self)
      rw [List.map_cons, List.filterMap_cons_some hcode, statusValue_of_some hcode,
        ih fun l hl => h l (List.mem_cons_of_mem line hl)]

/-- There is text on a line with `HTTP/`. -/
theorem Head.ne_nil_of_mem {h : Head} {line : CString} (hline : line ∈ h.statusLines) :
    line ≠ [] := by
  rintro rfl
  exact absurd (List.of_mem_filter hline) (by decide)

/-- What is left of a line is not the option of `echo`. -/
theorem statusValue_ne_option {line : CString} (hline : StatusText line) (hne : line ≠ []) :
    statusValue line ≠ ascii "-n" := by
  intro hvalue
  cases hcode : statusCode line with
  | none =>
      obtain ⟨b, rest, hrest, -, -, hhyphen⟩ := statusValue_of_none hline hne hcode
      rw [hrest] at hvalue
      exact hhyphen (List.cons.inj hvalue).1
  | some code =>
      rw [statusValue_of_some hcode] at hvalue
      have hdigit := isDigit_of_statusCode hcode (charByte '-') (hvalue ▸ List.mem_cons_self)
      exact absurd hdigit (by decide)

/-- Where all that is left are numbers, every line has one. -/
theorem isSome_of_digits {h : Head} (hlines : ∀ line ∈ h.statusLines, StatusText line)
    (hdigits : ∀ value ∈ (h.statusLines.map statusValue).filter (· != []),
      ∀ b ∈ value, isDigit b = true) :
    ∀ line ∈ h.statusLines, (statusCode line).isSome := by
  intro line hline
  cases hcode : statusCode line with
  | some code => rfl
  | none =>
      obtain ⟨b, rest, hrest, hdigit, -⟩ :=
        statusValue_of_none (hlines line hline) (Head.ne_nil_of_mem hline) hcode
      have hmem : statusValue line ∈ (h.statusLines.map statusValue).filter (· != []) := by
        rw [List.mem_filter, hrest]
        exact ⟨hrest ▸ List.mem_map_of_mem hline, rfl⟩
      have htrue := hdigits _ hmem b (hrest ▸ List.mem_cons_self)
      rw [hdigit] at htrue
      cases htrue

/-- Which headers `test_http_return` accepts. -/
theorem test_http_return_iff (hhost : host.Documented) (hcompares : host.ComparesNumbers)
    {h : Head} (hlines : ∀ line ∈ h.statusLines, StatusText line)
    (htext : host.binary h.text = false) (files : List CString) (name : CString) :
    test_http_return host files name h.text = true ↔ h.Accepted := by
  have hwords := words_HTTP_CODE hhost hlines htext files name
  have hvalues : ∀ word ∈ (h.statusLines.map statusValue).filter (· != []),
      word ≠ [] ∧ ∀ b ∈ word, b ≠ 0 ∧ b ≠ newline ∧ b ≠ blank ∧ b ≠ backslash := by
    intro word hword
    obtain ⟨hmem, hne⟩ := List.mem_filter.mp hword
    obtain ⟨line, hline, rfl⟩ := List.mem_map.mp hmem
    refine ⟨bne_iff_ne.mp hne, fun b hb => ?_⟩
    obtain ⟨hnul, hnewline, hslash, -, -, -, hseparator⟩ :=
      (hlines line hline).value (h.plain line (List.mem_of_mem_filter hline)).1 b hb
    refine ⟨hnul, hnewline, ?_, hslash⟩
    rintro rfl
    cases hseparator
  have hoption : ((h.statusLines.map statusValue).filter (· != [])).head? ≠
      some (ascii "-n") := by
    intro hhead
    obtain ⟨line, hline, hvalue⟩ :=
      List.mem_map.mp (List.mem_of_mem_filter (List.mem_of_head? hhead))
    exact statusValue_ne_option (hlines line hline) (Head.ne_nil_of_mem hline) hvalue
  rw [test_http_return]
  have htest := testDigits_iff hhost hwords hvalues hoption
  by_cases heach : ∀ line ∈ h.statusLines, (statusCode line).isSome
  · have hcodes : (h.statusLines.map statusValue).filter (· != []) = h.statusCodes := by
      rw [map_statusValue heach, Head.statusCodes]
    rw [hcodes] at htest hwords hvalues
    have hdigits : ∀ code ∈ h.statusCodes, ∀ b ∈ code, isDigit b = true := by
      intro code hcode
      obtain ⟨line, -, hline⟩ := List.mem_filterMap.mp (List.mem_of_mem_filter hcode)
      exact isDigit_of_statusCode hline
    have hrange := testRange_iff hcompares fun code hcode =>
      ⟨(hvalues code hcode).1, hdigits code hcode⟩
    rw [hwords]
    by_cases hany : h.statusCodes = []
    · rw [if_neg fun hdigit => (htest.mp hdigit).1 hany]
      exact iff_of_false Bool.false_ne_true fun haccepted => haccepted.any hany
    · rw [if_pos (htest.mpr ⟨hany, hdigits⟩), Bool.not_eq_true', hrange]
      exact ⟨fun hsuccess => ⟨heach, hany, hsuccess⟩, fun haccepted => haccepted.success⟩
  · -- what is left of a line without a number is no number
    have hdigits : ¬ testDigits host files (HTTP_CODE host name h.text) = true := fun hdigit =>
      heach (isSome_of_digits hlines (htest.mp hdigit).2)
    rw [if_neg hdigits]
    exact iff_of_false Bool.false_ne_true fun haccepted => heach haccepted.each

/-- What the installer goes on with after a response that is not chunked: the body as it was
sent, when the numbers on the lines with `HTTP/` are accepted; otherwise it has ended. -/
theorem receive_response (hhost : host.Documented) (hcompares : host.ComparesNumbers) {h : Head}
    (hlines : ∀ line ∈ h.statusLines, StatusText line) (htext : host.binary h.text = false)
    (hchunked : chunked h.text = false) (files : List CString) (name body : CString) :
    (h.Accepted → receive host files name (h.text ++ body) = some body) ∧
      (¬ h.Accepted → receive host files name (h.text ++ body) = none) := by
  have htest := test_http_return_iff hhost hcompares hlines htext files
    (name ++ ascii "_header")
  rw [receive, split_unchunked hchunked body]
  exact ⟨fun haccepted => if_pos (htest.mpr haccepted),
    fun hrefused => if_neg fun h => hrefused (htest.mp h)⟩

/-- A response with one status line, whose only number between blanks is its code: the code
decides. -/
theorem Head.accepted_iff {h : Head} {line code : CString} {n : Nat}
    (hlines : h.statusLines = [line]) (hline : statusCode line = some code)
    (hcode : natural code = some (n, [])) (hn : n < 2 ^ 63) :
    h.Accepted ↔ 200 ≤ n ∧ n < 300 := by
  have hne : code ≠ [] := by
    rintro rfl
    cases hcode
  have hcodes : h.statusCodes = [code] := by
    simp [Head.statusCodes, hlines, hline, hne]
  constructor
  · exact fun haccepted => haccepted.success code n hcodes hcode hn
  · intro hsuccess
    refine ⟨?_, by simp [hcodes], ?_⟩
    · simp [hlines, hline]
    · intro code' n' hcode' hn' _
      rw [hcodes] at hcode'
      cases hcode'
      cases hcode.symm.trans hn'
      exact hsuccess

end

/-- A header behind a line of `telnet`. -/
def telnetHead (lines : List CString)
    (h : ∀ line ∈ lines, newline ∉ line ∧ ∃ b ∈ line, b ≠ carriageReturn) : Head where
  lines := ascii "Connected to 127.0.0.1." :: lines
  returns := 1
  ne_nil := List.cons_ne_nil _ _
  plain := by
    intro line hline
    rcases List.mem_cons.mp hline with rfl | hmem
    · decide
    · exact h line hmem

/-- The example machine compares numbers as documented. -/
theorem exampleHost_comparesNumbers : exampleHost.ComparesNumbers :=
  fun _ _ _ => rfl

/-- A response of success. -/
def okHead : Head :=
  telnetHead [ascii "HTTP/1.1 200 OK\r"] (by decide)

/-- A response whose reason has another number. -/
def misleadingHead : Head :=
  telnetHead [ascii "HTTP/1.1 404 Error 200 x\r"] (by decide)

/-- A response that went through a proxy. -/
def proxyHead : Head :=
  telnetHead [ascii "HTTP/1.1 200 OK\r", ascii "Via: HTTP/1.1 proxy\r"] (by decide)

/-- The installer goes on with a body of success, and with one that was not found when the reason
says so; a response that went through a proxy ends it. -/
theorem receive_response_telnet :
    receive exampleHost [] (ascii "json_packages") (okHead.text ++ ascii "[]\n") =
        some (ascii "[]\n") ∧
      receive exampleHost [] (ascii "json_packages") (misleadingHead.text ++ ascii "[]\n") =
        some (ascii "[]\n") ∧
      receive exampleHost [] (ascii "json_packages") (proxyHead.text ++ ascii "[]\n") = none := by
  have hcode : natural (ascii "200") = some (200, []) := by decide
  have hok : okHead.Accepted := by
    have hlines : okHead.statusLines = [ascii "HTTP/1.1 200 OK\r"] := by decide +kernel
    exact (Head.accepted_iff hlines (by decide +kernel) hcode (by decide)).mpr (by decide)
  have hmisleading : misleadingHead.Accepted := by
    have hlines : misleadingHead.statusLines = [ascii "HTTP/1.1 404 Error 200 x\r"] := by
      decide +kernel
    exact (Head.accepted_iff hlines (by decide +kernel) hcode (by decide)).mpr (by decide)
  have hproxy : ¬ proxyHead.Accepted := by
    intro haccepted
    have hvia : ascii "Via: HTTP/1.1 proxy\r" ∈ proxyHead.statusLines := by decide +kernel
    exact absurd (haccepted.each _ hvia) (by decide)
  refine ⟨?_, ?_, ?_⟩
  · exact (receive_response exampleHost_documented exampleHost_comparesNumbers
      (by decide +kernel) (by decide +kernel) (by decide +kernel) _ _ _).1 hok
  · exact (receive_response exampleHost_documented exampleHost_comparesNumbers
      (by decide +kernel) (by decide +kernel) (by decide +kernel) _ _ _).1 hmisleading
  · exact (receive_response exampleHost_documented exampleHost_comparesNumbers
      (by decide +kernel) (by decide +kernel) (by decide +kernel) _ _ _).2 hproxy

end AlertProbe
