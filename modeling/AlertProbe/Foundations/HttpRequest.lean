import AlertProbe.Foundations.PercentEncoding
import AlertProbe.Foundations.TextLines

/-!
# Requests of HTTP

A reader for requests, as a server reads them: a request line, whose target has a
query of encoded parameters, header fields up to an empty line, and as many bytes
of the rest as the header says.  Lines end with a newline, or with a carriage
return and a newline.

Main results:

- Theorem `readRequest_message`: a message is divided where it was put together.
- Theorem `requestLine_eq`: a request line is read back.
- Theorem `parameters_formQuery`: a query is read back.
- Theorem `readRequest_cut`: a request line with a newline in its query is refused.
-/

namespace Foundations

/-! ## Lines -/

/-- The byte that may stand in front of a newline. -/
def carriageReturn : UInt8 := 13

/-- The two ways to end a line. -/
inductive LineEnd where
  | crlf
  | lf
deriving DecidableEq, Repr

/-- What stands at the end of a line. -/
def LineEnd.text : LineEnd → CString
  | .crlf => [carriageReturn, newline]
  | .lf => [newline]

/-- A line less the newline and the carriage returns at its end. -/
def bareLine (line : CString) : CString :=
  line.rdropWhile fun b => b == newline || b == carriageReturn

/-- A line with nothing on it. -/
def emptyLine (line : CString) : Bool :=
  bareLine line == []

/-- Text that no line end can be taken off. -/
def OneLine (line : CString) : Prop :=
  newline ∉ line ∧ line.getLast? ≠ some carriageReturn

/-- Lines with their ends, an empty line, and a body. -/
def message (lineEnd : LineEnd) (lines : List CString) (body : CString) : CString :=
  lines.flatMap (· ++ lineEnd.text) ++ lineEnd.text ++ body

/-- The end of a line is taken off. -/
theorem bareLine_append {line : CString} (h : OneLine line) (lineEnd : LineEnd) :
    bareLine (line ++ lineEnd.text) = line := by
  have hself : bareLine line = line := by
    rw [bareLine, List.rdropWhile_eq_self_iff]
    intro hne hlast
    rw [Bool.or_eq_true, beq_iff_eq, beq_iff_eq] at hlast
    rcases hlast with heq | heq
    · exact h.1 (heq ▸ List.getLast_mem hne)
    · exact h.2 (by rw [List.getLast?_eq_some_getLast hne, heq])
  rw [bareLine] at hself ⊢
  cases lineEnd with
  | lf => rw [LineEnd.text, List.rdropWhile_concat_pos _ _ _ rfl, hself]
  | crlf =>
      have hsplit : line ++ LineEnd.crlf.text = line ++ [carriageReturn] ++ [newline] := by
        simp [LineEnd.text]
      rw [hsplit, List.rdropWhile_concat_pos _ _ _ rfl, List.rdropWhile_concat_pos _ _ _ rfl,
        hself]

/-- A line with its end is an ended line. -/
theorem ended_map (lineEnd : LineEnd) {lines : List CString} (h : ∀ line ∈ lines, OneLine line) :
    Ended newline (lines.map (· ++ lineEnd.text)) := by
  intro text htext
  rcases List.mem_map.mp htext with ⟨line, hline, rfl⟩
  have hnewline := (h line hline).1
  cases lineEnd with
  | lf => exact ⟨line, rfl, hnewline⟩
  | crlf =>
      refine ⟨line ++ [carriageReturn], by simp [LineEnd.text], ?_⟩
      rw [List.mem_append, not_or]
      exact ⟨hnewline, by decide⟩

/-! ## Reading -/

/-- A request as it is read. -/
structure HttpRequest where
  method : CString
  path : CString
  parameters : List (CString × CString)
  headers : List (CString × CString)
  body : CString
deriving DecidableEq, Repr

/-- A parameter of a query. -/
def parameter (text : CString) : Option (CString × CString) :=
  (field (charByte '=') text).bind fun p => (percentDecode p.2).map fun value => (p.1, value)

/-- The parameters of a query. -/
def parameters (query : CString) : Option (List (CString × CString)) :=
  (query.splitOn (charByte '&')).mapM parameter

/-- Method, path and parameters of a request line. -/
def requestLine (line : CString) : Option (CString × CString × List (CString × CString)) := do
  let (method, rest) ← field blank line
  let (target, version) ← field blank rest
  let (path, query) ← field (charByte '?') target
  if version = ascii "HTTP/1.1" then
    (parameters query).map fun values => (method, path, values)
  else none

/-- A small letter for a capital one. -/
def lowerCase (b : UInt8) : UInt8 :=
  if 65 ≤ b.toNat ∧ b.toNat ≤ 90 then b + 32 else b

/-- Name and value of a header field. -/
def headerField (line : CString) : Option (CString × CString) :=
  (field (charByte ':') line).map fun p => (p.1.map lowerCase, p.2.dropWhile (· == blank))

/-- The length of the body. -/
def bodyLength (headers : List (CString × CString)) : Option Nat :=
  match (headers.lookup (ascii "content-length")).map natural with
  | none => some 0
  | some (some (n, [])) => some n
  | some _ => none

/-- The request with the given lines, of which the bytes behind the header have come in.  As long
as the body is not complete there is none. -/
def assembled (first : CString) (fields : List CString) (available : CString) :
    Option HttpRequest := do
  let (method, path, parameters) ← requestLine first
  let headers ← fields.mapM headerField
  let length ← bodyLength headers
  if length ≤ available.length then
    some { method, path, parameters, headers, body := available.take length }
  else none

/-- Read a request. -/
def readRequest (input : CString) : Option HttpRequest :=
  match textLines newline input with
  | [] => none
  | first :: rest =>
      if rest.any emptyLine then
        assembled (bareLine first) ((through emptyLine rest).dropLast.map bareLine)
          (behind emptyLine rest).flatten
      else none

/-! ## Reading back -/

/-- A message is divided where it was put together. -/
theorem readRequest_message (lineEnd : LineEnd) {first : CString} {headers : List CString}
    (hfirst : OneLine first) (hheaders : ∀ line ∈ headers, OneLine line ∧ line ≠ [])
    (body : CString) :
    readRequest (message lineEnd (first :: headers) body) = assembled first headers body := by
  have hlines : ∀ line ∈ first :: headers, OneLine line := by
    intro line hline
    rcases List.mem_cons.mp hline with rfl | hmem
    · exact hfirst
    · exact (hheaders line hmem).1
  have hone : OneLine [] := ⟨List.not_mem_nil, nofun⟩
  have hended : Ended newline (((first :: headers) ++ [[]]).map (· ++ lineEnd.text)) := by
    apply ended_map
    intro line hline
    rcases List.mem_append.mp hline with hmem | hmem
    · exact hlines line hmem
    · exact List.mem_singleton.mp hmem ▸ hone
  have htext : message lineEnd (first :: headers) body =
      (((first :: headers) ++ [[]]).map (· ++ lineEnd.text)).flatten ++ body := by
    simp [message, List.flatMap_def]
  have hempty : emptyLine lineEnd.text = true := by
    rw [emptyLine, beq_iff_eq]
    exact bareLine_append hone lineEnd
  have hfull : ∀ line ∈ headers.map (· ++ lineEnd.text), emptyLine line = false := by
    intro text htext
    rcases List.mem_map.mp htext with ⟨line, hline, rfl⟩
    rw [emptyLine, bareLine_append (hheaders line hline).1, beq_eq_false_iff_ne]
    exact (hheaders line hline).2
  have hbare : (headers.map (· ++ lineEnd.text)).map bareLine = headers := by
    rw [List.map_map]
    conv_rhs => rw [← List.map_id headers]
    exact List.map_congr_left fun line hline => bareLine_append (hheaders line hline).1 lineEnd
  have hrest : textLines newline (message lineEnd (first :: headers) body) =
      (first ++ lineEnd.text) ::
        (headers.map (· ++ lineEnd.text) ++ lineEnd.text :: textLines newline body) := by
    rw [htext, textLines_append hended]
    simp
  rw [readRequest, hrest]
  simp only [List.any_append, List.any_cons, hempty, Bool.true_or, Bool.or_true, if_true]
  rw [through_append hfull hempty, behind_append hfull hempty, flatten_textLines,
    List.dropLast_concat, hbare, bareLine_append hfirst]

/-- A request line is read back. -/
theorem requestLine_eq {method path query : CString} (hmethod : blank ∉ method)
    (hpath : blank ∉ path ∧ charByte '?' ∉ path) (hquery : blank ∉ query) :
    requestLine
        (method ++ blank :: ((path ++ charByte '?' :: query) ++ blank :: ascii "HTTP/1.1")) =
      (parameters query).map fun values => (method, path, values) := by
  have htarget : blank ∉ path ++ charByte '?' :: query := by
    rw [List.mem_append, List.mem_cons, not_or, not_or]
    exact ⟨hpath.1, by decide, hquery⟩
  simp only [requestLine, field_append hmethod, field_append htarget, field_append hpath.2,
    Option.bind_eq_bind, Option.bind_some, if_true]

/-- A request line has two blanks. -/
theorem requestLine_eq_none {line : CString} (h : line.count blank ≤ 1) :
    requestLine line = none := by
  cases hfirst : field blank line with
  | none => simp [requestLine, hfirst]
  | some p =>
      rcases p with ⟨method, rest⟩
      cases hsecond : field blank rest with
      | none => simp [requestLine, hfirst, hsecond]
      | some q =>
          rcases q with ⟨target, version⟩
          rw [eq_of_field hfirst, eq_of_field hsecond] at h
          simp only [List.count_append, List.count_cons_self] at h
          omega

/-- Without a second blank in front of the first newline there is no request. -/
theorem readRequest_cut {line : CString} (hline : newline ∉ line) (hblank : line.count blank ≤ 1)
    (rest : CString) : readRequest (line ++ newline :: rest) = none := by
  have hcount : (bareLine (line ++ [newline])).count blank ≤ 1 := by
    have hsub := (List.rdropWhile_prefix (fun b => b == newline || b == carriageReturn)
      (line ++ [newline])).sublist.count_le blank
    have hnewline : [newline].count blank = 0 := rfl
    rw [List.count_append, hnewline] at hsub
    rw [bareLine]
    omega
  rw [readRequest, textLines_line hline]
  simp only [assembled, requestLine_eq_none hcount, Option.bind_eq_bind, Option.bind_none,
    ite_self]

/-- A query of encoded values. -/
def formQuery (values : List (CString × CString)) : CString :=
  [charByte '&'].intercalate (values.map fun p => p.1 ++ charByte '=' :: p.2)

/-- Parameters are read back one by one. -/
theorem mapM_parameter {values : List (CString × CString)}
    (h : ∀ p ∈ values, charByte '=' ∉ p.1) :
    (values.map fun p => p.1 ++ charByte '=' :: p.2).mapM parameter =
      values.mapM fun p => (percentDecode p.2).map fun value => (p.1, value) := by
  rw [List.mapM_map]
  induction values with
  | nil => rfl
  | cons p values ih =>
      have hp : parameter (p.1 ++ charByte '=' :: p.2) =
          (percentDecode p.2).map fun value => (p.1, value) := by
        rw [parameter, field_append (h p List.mem_cons_self)]
        rfl
      rw [List.mapM_cons, List.mapM_cons, ih fun q hq => h q (List.mem_cons_of_mem p hq),
        Function.comp_apply, hp]

/-- A query is read back. -/
theorem parameters_formQuery {values : List (CString × CString)} (hne : values ≠ [])
    (h : ∀ p ∈ values, charByte '=' ∉ p.1 ∧ charByte '&' ∉ p.1 ∧ charByte '&' ∉ p.2) :
    parameters (formQuery values) =
      values.mapM fun p => (percentDecode p.2).map fun value => (p.1, value) := by
  have hpieces : ∀ text ∈ values.map fun p => p.1 ++ charByte '=' :: p.2,
      charByte '&' ∉ text := by
    intro text htext
    rcases List.mem_map.mp htext with ⟨p, hp, rfl⟩
    rw [List.mem_append, List.mem_cons, not_or, not_or]
    exact ⟨(h p hp).2.1, by decide, (h p hp).2.2⟩
  rw [parameters, formQuery, List.splitOn_intercalate _ hpieces (by simpa using hne),
    mapM_parameter fun p hp => (h p hp).1]

/-- The line of a header field. -/
def fieldLine (p : CString × CString) : CString :=
  p.1 ++ ascii ": " ++ p.2

/-- The name ends at the colon, and the value at the ends of the line. -/
structure PlainField (p : CString × CString) : Prop where
  name : charByte ':' ∉ p.1
  value : p.2.head? ≠ some blank
  line : OneLine (fieldLine p)

/-- A header field as it is read. -/
def readField (p : CString × CString) : CString × CString :=
  (p.1.map lowerCase, p.2)

/-- A header field is read back. -/
theorem headerField_fieldLine {p : CString × CString} (h : PlainField p) :
    headerField (fieldLine p) = some (readField p) := by
  have htext : fieldLine p = p.1 ++ charByte ':' :: (blank :: p.2) := by
    simp [fieldLine, ascii, charByte, blank]
  have hvalue := h.value
  rw [headerField, htext, field_append h.name, readField]
  cases htail : p.2 with
  | nil => rfl
  | cons b value =>
      have hb : b ≠ blank := by simpa [htail] using hvalue
      simp [hb]

/-- Header fields are read back. -/
theorem mapM_headerField {fields : List (CString × CString)} (h : ∀ p ∈ fields, PlainField p) :
    (fields.map fieldLine).mapM headerField = some (fields.map readField) := by
  induction fields with
  | nil => rfl
  | cons p fields ih =>
      rw [List.map_cons, List.mapM_cons, headerField_fieldLine (h p List.mem_cons_self),
        ih fun q hq => h q (List.mem_cons_of_mem p hq)]
      rfl

/-- A request as it was put together, if its body is complete. -/
theorem readRequest_fields (lineEnd : LineEnd) {first : CString} (hfirst : OneLine first)
    {fields : List (CString × CString)} (hfields : ∀ p ∈ fields, PlainField p) {length : Nat}
    (hlength : bodyLength (fields.map readField) = some length) {body : CString}
    (hbody : length ≤ body.length) :
    readRequest (message lineEnd (first :: fields.map fieldLine) body) =
      (requestLine first).map fun p =>
        { method := p.1, path := p.2.1, parameters := p.2.2, headers := fields.map readField,
          body := body.take length } := by
  have hlines : ∀ line ∈ fields.map fieldLine, OneLine line ∧ line ≠ [] := by
    intro line hline
    rcases List.mem_map.mp hline with ⟨p, hp, rfl⟩
    exact ⟨(hfields p hp).line, by simp [fieldLine, ascii]⟩
  rw [readRequest_message lineEnd hfirst hlines, assembled]
  cases requestLine first with
  | none => rfl
  | some p => simp [mapM_headerField hfields, hlength, hbody]

end Foundations
