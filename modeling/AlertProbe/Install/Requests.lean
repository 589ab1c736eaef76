import AlertProbe.Install.Credentials
import AlertProbe.Install.PlainLines
import AlertProbe.Model.Http

/-!
# Requests to the API

What the API reads of the requests that the installer prints itself.  The
credentials are in the query of each of them.  The length of a body is counted on
the output of an `echo` whose argument is not quoted, which has one blank where the
body has several.

Main results:

- Theorem `percentDecode_encode_url_iff`: the credentials that can be decoded.
- Theorem `request_credentials_iff`: the credentials that the API reads as they are.
- Theorem `asset_delivered_iff`: when the API reads what the asset is updated with.
-/

namespace AlertProbe

open Foundations

/-! ## Credentials in a query -/

/-- A credential that `echo` prints as it is. -/
def Credential.Unaltered (credential : Credential) : Prop :=
  credential.text ≠ ascii "-n" ∧ EscapeFree credential.text

/-- Bytes of a code: letters, digits, percent signs, and bytes that no rule is for. -/
def codeByte (b : UInt8) : Bool :=
  alphanumeric b || b == charByte '%' || !printableByte b

/-- There are rules for printable characters only. -/
theorem lookup_urlRules {b : UInt8} (hb : printableByte b = false) :
    lookupSymbol urlRules b = [b] := by
  have hrules : ∀ p ∈ urlRules, printableByte p.1 = true := by
    decide
  have hlookup : urlRules.lookup b = none := by
    rw [List.lookup_eq_none_iff]
    intro p hp
    rw [bne_iff_ne]
    rintro rfl
    rw [hrules p hp] at hb
    cases hb
  rw [lookupSymbol, hlookup]
  rfl

/-- The codes of the rules. -/
theorem codeByte_lookupSymbol (b : UInt8) : ∀ c ∈ lookupSymbol urlRules b, codeByte c = true := by
  have hescaped : ∀ b, (escapedByte b).all codeByte = true := by
    decide +kernel
  by_cases hb : printableByte b = true
  · rw [lookupSymbol_urlRules b hb]
    by_cases halphanumeric : alphanumeric b = true
    · simp [halphanumeric, codeByte]
    · rw [if_neg halphanumeric]
      exact List.all_eq_true.mp (hescaped b)
  · rw [Bool.not_eq_true] at hb
    simp [lookup_urlRules hb, codeByte, hb]

/-- A byte of a code that is not a percent sign has no rule. -/
theorem codeLength_of_codeByte {b : UInt8} (h : codeByte b = true) :
    b = charByte '%' ∨ codeLength b = 1 := by
  by_cases hb : printableByte b = true
  · by_cases halphanumeric : alphanumeric b = true
    · right
      rw [codeLength, lookupSymbol_urlRules b hb, if_pos halphanumeric, List.length_singleton]
    · left
      simpa [codeByte, halphanumeric, hb] using h
  · rw [Bool.not_eq_true] at hb
    right
    rw [codeLength, lookup_urlRules hb, List.length_singleton]

/-- The bytes of an encoded text. -/
theorem codeByte_encode_url (text : CString) : ∀ b ∈ encode_url text, codeByte b = true := by
  by_cases hn : text = ascii "-n"
  · have hnil : encode_url text = [] := by
      rw [hn]
      decide
    rw [hnil]
    exact List.forall_mem_nil _
  · intro b hb
    rw [encode_url_scan hn, commandSubstitution] at hb
    have hmem := List.mem_of_mem_filter ((List.rdropWhile_prefix _ _).subset hb)
    rcases List.mem_flatMap.mp hmem with ⟨c, -, hc⟩
    exact codeByte_lookupSymbol c b hc

/-- What is decoded is no heavier than what it is decoded from. -/
theorem weight_le_of_percentDecode {text decoded : CString}
    (h : percentDecode text = some decoded) (hbytes : ∀ b ∈ text, codeByte b = true) :
    weight codeLength decoded ≤ text.length := by
  induction text using percentDecode.induct generalizing decoded with
  | case1 =>
      rw [percentDecode, Option.some.injEq] at h
      rw [← h]
      rfl
  | case2 high low rest ih =>
      simp only [percentDecode, if_true, Option.bind_eq_bind, Option.bind_eq_some_iff,
        Option.some.injEq] at h
      obtain ⟨m, -, n, -, tail, htail, rfl⟩ := h
      have hrest := ih htail fun c hc => hbytes c (by simp [hc])
      have hcode := (codeLength_bounds (UInt8.ofNat (16 * m + n))).2
      rw [weight_cons, List.length_cons, List.length_cons, List.length_cons]
      omega
  | case3 rest hshort =>
      rw [percentDecode, if_pos rfl] at h
      · cases h
      · exact hshort
  | case4 b rest hb ih =>
      rw [percentDecode_cons hb, Option.map_eq_some_iff] at h
      obtain ⟨tail, htail, rfl⟩ := h
      have hrest := ih htail fun c hc => hbytes c (List.mem_cons_of_mem b hc)
      have hcode := (codeLength_of_codeByte (hbytes b List.mem_cons_self)).resolve_left hb
      rw [weight_cons, List.length_cons]
      omega

/-- An unaltered credential is encoded byte by byte. -/
theorem Credential.Unaltered.encode_url_eq {credential : Credential}
    (h : credential.Unaltered) : encode_url credential.text = percentEncode credential.text :=
  encode_url_of_escapeFree credential h.1 h.2

/-- The credentials that can be decoded: whatever `echo` makes of a sequence, it is too short to
be decoded to the credential. -/
theorem percentDecode_encode_url_iff (credential : Credential) :
    percentDecode (encode_url credential.text) = some credential.text ↔
      credential.Unaltered := by
  constructor
  · intro h
    have hn : credential.text ≠ ascii "-n" := by
      intro hn
      rw [hn] at h
      exact absurd h (by decide)
    refine ⟨hn, ?_⟩
    by_contra hfree
    have hlt := encode_url_length_lt hn hfree
    have hle := weight_le_of_percentDecode h (codeByte_encode_url credential.text)
    rw [length_flatMap_urlRules] at hlt
    omega
  · intro h
    rw [h.encode_url_eq, percentDecode_percentEncode]

/-- The query of the credentials. -/
theorem credentialQuery_eq (LOGIN PASSWORD : CString) :
    credentialQuery LOGIN PASSWORD =
      formQuery [(ascii "login", encode_url LOGIN), (ascii "password", encode_url PASSWORD)] := by
  simp [credentialQuery, formQuery, List.intercalate_cons_cons, ascii, charByte]

/-- The parameters that the API reads of the query. -/
theorem parameters_credentialQuery (LOGIN PASSWORD : CString) :
    parameters (credentialQuery LOGIN PASSWORD) =
      (percentDecode (encode_url LOGIN)).bind fun login =>
        (percentDecode (encode_url PASSWORD)).map fun password =>
          [(ascii "login", login), (ascii "password", password)] := by
  have hamp : ∀ text, charByte '&' ∉ encode_url text := by
    intro text hmem
    exact absurd (codeByte_encode_url text _ hmem) (by decide)
  have hkeys : charByte '=' ∉ ascii "login" ∧ charByte '&' ∉ ascii "login" ∧
      charByte '=' ∉ ascii "password" ∧ charByte '&' ∉ ascii "password" := by decide
  have hvalues : ∀ p ∈ [(ascii "login", encode_url LOGIN), (ascii "password", encode_url PASSWORD)],
      charByte '=' ∉ p.1 ∧ charByte '&' ∉ p.1 ∧ charByte '&' ∉ p.2 := by
    intro p hp
    simp only [List.mem_cons, List.not_mem_nil, or_false] at hp
    rcases hp with rfl | rfl
    · exact ⟨hkeys.1, hkeys.2.1, hamp LOGIN⟩
    · exact ⟨hkeys.2.2.1, hkeys.2.2.2, hamp PASSWORD⟩
  rw [credentialQuery_eq, parameters_formQuery (List.cons_ne_nil _ _) hvalues]
  simp only [List.mapM_cons, List.mapM_nil]
  cases percentDecode (encode_url LOGIN) <;> cases percentDecode (encode_url PASSWORD) <;> rfl

/-- There is no blank in the query. -/
theorem blank_not_mem_credentialQuery (LOGIN PASSWORD : CString) :
    blank ∉ credentialQuery LOGIN PASSWORD := by
  have hcode : ∀ text, blank ∉ encode_url text := by
    intro text hmem
    exact absurd (codeByte_encode_url text _ hmem) (by decide)
  have hlogin : blank ∉ ascii "login=" := by decide
  have hpassword : blank ∉ ascii "&password=" := by decide
  simp only [credentialQuery, List.mem_append, hcode, hlogin, hpassword, or_self, not_false_eq_true]

/-- There is no newline in the query of unaltered credentials. -/
theorem newline_not_mem_credentialQuery {login password : Credential} (hlogin : login.Unaltered)
    (hpassword : password.Unaltered) : newline ∉ credentialQuery login.text password.text := by
  have hcode : ∀ text, newline ∉ percentEncode text := by
    intro text hmem
    exact absurd ((urlSafe_percentEncode text).mem _ hmem) (by decide)
  have hfirst : newline ∉ ascii "login=" := by decide
  have hsecond : newline ∉ ascii "&password=" := by decide
  simp only [credentialQuery, hlogin.encode_url_eq, hpassword.encode_url_eq, List.mem_append, hcode,
    hfirst, hsecond, or_self, not_false_eq_true]

/-! ## Requests as messages -/

/-- The request line. -/
def startLine (method path query : CString) : CString :=
  method ++ blank :: ((path ++ charByte '?' :: query) ++ blank :: ascii "HTTP/1.1")

/-- The header fields of `get`. -/
def getFields (API_HOST : CString) : List (CString × CString) :=
  [(ascii "Host", API_HOST), (ascii "Connection", ascii "close")]

/-- The header fields of `post` and `put`. -/
def sendFields (API_HOST length : CString) : List (CString × CString) :=
  [(ascii "Host", API_HOST), (ascii "Content-Type", ascii "application/json; charset=utf-8"),
    (ascii "Content-length", length), (ascii "Connection", ascii "close")]

/-- The message of `get`. -/
theorem getRequest_eq (lineEnd : LineEnd) (path query API_HOST : CString) :
    getRequest lineEnd path query API_HOST =
      message lineEnd (startLine (ascii "GET") path query ::
        (getFields API_HOST).map fieldLine) [] := by
  have hmethod : ascii "GET " = ascii "GET" ++ [blank] := rfl
  have hmark : ascii "?" = [charByte '?'] := rfl
  have hversion : ascii " HTTP/1.1" = [blank] ++ ascii "HTTP/1.1" := rfl
  have hhost : ascii "Host: " = ascii "Host" ++ ascii ": " := rfl
  have hconnection : ascii "Connection: close" =
      ascii "Connection" ++ ascii ": " ++ ascii "close" := rfl
  simp only [getRequest, message, startLine, getFields, fieldLine, hmethod, hmark, hversion, hhost,
    hconnection, List.map_cons, List.map_nil, List.flatMap_cons, List.flatMap_nil,
    List.append_assoc, List.cons_append, List.nil_append, List.append_nil]

/-- The message of `post` and `put`. -/
theorem sendRequest_eq (method : String) (lineEnd : LineEnd)
    (path query API_HOST length json : CString) :
    sendRequest method lineEnd path query API_HOST length json =
      message lineEnd (startLine (ascii method) path query ::
        (sendFields API_HOST length).map fieldLine) (json ++ lineEnd.text) := by
  have hblank : ascii " " = [blank] := rfl
  have hmark : ascii "?" = [charByte '?'] := rfl
  have hversion : ascii " HTTP/1.1" = [blank] ++ ascii "HTTP/1.1" := rfl
  have hhost : ascii "Host: " = ascii "Host" ++ ascii ": " := rfl
  have htype : ascii "Content-Type: application/json; charset=utf-8" =
      ascii "Content-Type" ++ ascii ": " ++ ascii "application/json; charset=utf-8" := by
    decide +kernel
  have hlength : ascii "Content-length: " = ascii "Content-length" ++ ascii ": " := rfl
  have hconnection : ascii "Connection: close" =
      ascii "Connection" ++ ascii ": " ++ ascii "close" := rfl
  unfold sendRequest
  simp only [hblank, hmark, hversion, hhost, htype, hlength, hconnection]
  simp only [message, startLine, sendFields, fieldLine, List.map_cons, List.map_nil,
    List.flatMap_cons, List.flatMap_nil]
  simp only [List.append_assoc, List.cons_append, List.nil_append]

/-- Texts that a method or a path is made of. -/
def TargetText (text : CString) : Prop :=
  blank ∉ text ∧ newline ∉ text ∧ charByte '?' ∉ text

instance (text : CString) : Decidable (TargetText text) :=
  inferInstanceAs (Decidable (_ ∧ _ ∧ _))

/-- What the API reads as parameters. -/
def credentialParameters (login password : Credential) : List (CString × CString) :=
  [(ascii "login", login.text), (ascii "password", password.text)]

section

variable {method path : CString} (hmethod : TargetText method) (hpath : TargetText path)
  {fields : List (CString × CString)} (hfields : ∀ p ∈ fields, PlainField p) {length : Nat}
  (hlength : bodyLength (fields.map readField) = some length) {body : CString}
  (hbody : length ≤ body.length) (lineEnd : LineEnd) (login password : Credential)

include hmethod hpath

/-- A request line with a newline in its query is cut off there. -/
theorem readRequest_newline {query : CString} (hquery : blank ∉ query) (hnewline : newline ∈ query)
    (lines : List CString) (body : CString) :
    readRequest (message lineEnd (startLine method path query :: lines) body) = none := by
  rcases List.eq_append_cons_of_mem hnewline with ⟨front, back, rfl, hfront⟩
  have hblank : blank ∉ front := fun hmem => hquery (List.mem_append_left _ hmem)
  have htext : message lineEnd (startLine method path (front ++ newline :: back) :: lines) body =
      (method ++ blank :: (path ++ charByte '?' :: front)) ++ newline ::
        (back ++ blank :: ascii "HTTP/1.1" ++ lineEnd.text ++ message lineEnd lines body) := by
    simp [message, startLine]
  have hline : newline ∉ method ++ blank :: (path ++ charByte '?' :: front) := by
    simp only [List.mem_append, List.mem_cons, not_or]
    exact ⟨hmethod.2.1, by decide, hpath.2.1, by decide, hfront⟩
  have hcount : (method ++ blank :: (path ++ charByte '?' :: front)).count blank ≤ 1 := by
    have hmark : charByte '?' ≠ blank := by decide
    rw [List.count_append, List.count_cons_self, List.count_append, List.count_cons_of_ne hmark,
      List.count_eq_zero_of_not_mem hmethod.1, List.count_eq_zero_of_not_mem hpath.1,
      List.count_eq_zero_of_not_mem hblank]
  rw [htext, readRequest_cut hline hcount]

include hfields hlength hbody

/-- What the API reads of a request whose query is on one line. -/
theorem readRequest_startLine {query : CString} (hquery : blank ∉ query)
    (hnewline : newline ∉ query) :
    readRequest (message lineEnd (startLine method path query :: fields.map fieldLine) body) =
      (parameters query).map fun values =>
        { method, path, parameters := values, headers := fields.map readField,
          body := body.take length } := by
  have hone : OneLine (startLine method path query) := by
    constructor
    · simp only [startLine, List.mem_append, List.mem_cons, not_or]
      exact ⟨hmethod.2.1, by decide, ⟨hpath.2.1, by decide, hnewline⟩, by decide, by decide⟩
    · have hsplit : startLine method path query =
          method ++ blank :: ((path ++ charByte '?' :: query) ++ blank :: ascii "HTTP/1.") ++
            [charByte '1'] := by
        have hversion : ascii "HTTP/1.1" = ascii "HTTP/1." ++ [charByte '1'] := rfl
        rw [startLine, hversion]
        simp only [List.append_assoc, List.cons_append]
      rw [hsplit, List.getLast?_concat]
      decide
  rw [readRequest_fields lineEnd hone hfields hlength hbody, startLine,
    requestLine_eq hmethod.1 ⟨hpath.1, hpath.2.2⟩ hquery, Option.map_map]
  rfl

/-- What the API reads of a request with unaltered credentials. -/
theorem readRequest_unaltered (hlogin : login.Unaltered) (hpassword : password.Unaltered) :
    readRequest (message lineEnd (startLine method path
        (credentialQuery login.text password.text) :: fields.map fieldLine) body) =
      some
        { method, path, parameters := credentialParameters login password,
          headers := fields.map readField, body := body.take length } := by
  have hparameters : parameters (credentialQuery login.text password.text) =
      some (credentialParameters login password) := by
    rw [parameters_credentialQuery, (percentDecode_encode_url_iff login).mpr hlogin,
      (percentDecode_encode_url_iff password).mpr hpassword]
    rfl
  rw [readRequest_startLine hmethod hpath hfields hlength hbody lineEnd
    (blank_not_mem_credentialQuery _ _) (newline_not_mem_credentialQuery hlogin hpassword),
    hparameters]
  rfl

/-- What the API reads as credentials was decoded from the query. -/
theorem percentDecode_of_readRequest {LOGIN PASSWORD : CString} {r : HttpRequest}
    {login password : Credential}
    (hread : readRequest (message lineEnd (startLine method path
      (credentialQuery LOGIN PASSWORD) :: fields.map fieldLine) body) = some r)
    (hparameters : r.parameters = credentialParameters login password) :
    percentDecode (encode_url LOGIN) = some login.text ∧
      percentDecode (encode_url PASSWORD) = some password.text := by
  have hquery := blank_not_mem_credentialQuery LOGIN PASSWORD
  by_cases hnewline : newline ∈ credentialQuery LOGIN PASSWORD
  · rw [readRequest_newline hmethod hpath lineEnd hquery hnewline] at hread
    cases hread
  · rw [readRequest_startLine hmethod hpath hfields hlength hbody lineEnd hquery hnewline,
      parameters_credentialQuery, Option.map_eq_some_iff] at hread
    rcases hread with ⟨values, hvalues, rfl⟩
    simp only [Option.bind_eq_some_iff, Option.map_eq_some_iff] at hvalues
    rcases hvalues with ⟨l, hl, p, hp, rfl⟩
    simp only [credentialParameters, List.cons.injEq, Prod.mk.injEq, true_and, and_true]
      at hparameters
    rw [hparameters.1] at hl
    rw [hparameters.2] at hp
    exact ⟨hl, hp⟩

/-- The API reads the credentials of a request exactly when they are unaltered. -/
theorem readRequest_credentials_iff :
    (∃ r, readRequest (message lineEnd (startLine method path
        (credentialQuery login.text password.text) :: fields.map fieldLine) body) = some r ∧
      r.parameters = credentialParameters login password) ↔
        login.Unaltered ∧ password.Unaltered := by
  constructor
  · rintro ⟨r, hr, hparameters⟩
    obtain ⟨hl, hp⟩ := percentDecode_of_readRequest hmethod hpath hfields hlength hbody lineEnd hr
      hparameters
    exact ⟨(percentDecode_encode_url_iff login).mp hl,
      (percentDecode_encode_url_iff password).mp hp⟩
  · rintro ⟨hlogin, hpassword⟩
    exact ⟨_, readRequest_unaltered hmethod hpath hfields hlength hbody lineEnd login password
      hlogin hpassword, rfl⟩

end

/-! ## Words between blanks -/

/-- The empty words between the blanks of a text: the blanks that the shell drops when the text
is not quoted. -/
def emptyWords (text : CString) : Nat :=
  (text.splitOn blank).count []

/-- Printable characters that the shell and `echo` do not interpret. -/
def shellByte (b : UInt8) : Bool :=
  printableByte b && b != backslash && b != charByte '*' && b != charByte '?' && b != charByte '['

theorem shellByte_spec {b : UInt8} (hb : shellByte b = true) :
    printableByte b = true ∧ b ≠ backslash ∧ b ≠ charByte '*' ∧ b ≠ charByte '?' ∧
      b ≠ charByte '[' := by
  simp only [shellByte, Bool.and_eq_true, bne_iff_ne] at hb
  obtain ⟨⟨⟨⟨hprintable, hslash⟩, hstar⟩, hquestion⟩, hbracket⟩ := hb
  exact ⟨hprintable, hslash, hstar, hquestion, hbracket⟩

/-- The words are made of the bytes of the text. -/
theorem mem_of_mem_splitOnP {p : UInt8 → Bool} {text word : CString}
    (hword : word ∈ text.splitOnP p) : ∀ b ∈ word, b ∈ text := by
  induction text generalizing word with
  | nil => simp_all
  | cons c text ih =>
      rw [List.splitOnP_cons_eq_if_modifyHead] at hword
      split at hword
      · rcases List.mem_cons.mp hword with rfl | hmem
        · exact List.forall_mem_nil _
        · exact fun b hb => List.mem_cons_of_mem c (ih hmem b hb)
      · cases hwords : text.splitOnP p with
        | nil => simp [hwords] at hword
        | cons first words =>
            rw [hwords, List.modifyHead_cons] at hword
            intro b hb
            rcases List.mem_cons.mp hword with rfl | hmem
            · rcases List.mem_cons.mp hb with rfl | hb
              · exact List.mem_cons_self
              · exact List.mem_cons_of_mem c (ih (hwords ▸ List.mem_cons_self) b hb)
            · exact List.mem_cons_of_mem c (ih (hwords ▸ List.mem_cons_of_mem first hmem) b hb)

/-- Two ways to separate the words of a text. -/
theorem splitOnP_congr {p q : UInt8 → Bool} {text : CString} (h : ∀ b ∈ text, p b = q b) :
    text.splitOnP p = text.splitOnP q := by
  induction text with
  | nil => rfl
  | cons c text ih =>
      rw [List.splitOnP_cons_eq_if_modifyHead, List.splitOnP_cons_eq_if_modifyHead,
        h c List.mem_cons_self, ih fun b hb => h b (List.mem_cons_of_mem c hb)]

/-- The fields of a printable text are its words that are not empty. -/
theorem fields_eq_filter {text : CString} (h : ∀ b ∈ text, printableByte b = true) :
    fields text = (text.splitOn blank).filter (· != []) := by
  have hseparator : ∀ b ∈ text, fieldSeparator b = (b == blank) := by
    intro b hb
    have htab : b ≠ 9 := by
      rintro rfl
      exact absurd (h 9 hb) (by decide)
    have hnewline : b ≠ newline := by
      rintro rfl
      exact absurd (h newline hb) (by decide)
    rw [fieldSeparator, beq_eq_false_iff_ne.mpr htab, beq_eq_false_iff_ne.mpr hnewline,
      Bool.or_false, Bool.or_false]
  rw [fields, splitOnP_congr hseparator, List.splitOn_eq_splitOnP]

/-- The length of words with a separator between them. -/
theorem length_intercalate (x : UInt8) {words : List CString} (hne : words ≠ []) :
    ([x].intercalate words).length + 1 = (words.map fun word => word.length + 1).sum := by
  induction words with
  | nil => exact absurd rfl hne
  | cons word words ih =>
      cases words with
      | nil => simp
      | cons next words =>
          have hrest := ih (List.cons_ne_nil next words)
          rw [List.intercalate_cons_cons, List.length_append, List.length_append,
            List.length_singleton, List.map_cons, List.sum_cons, ← hrest]
          omega

/-- Dropping the empty words drops a separator for each. -/
theorem sum_filter_ne_nil (words : List CString) :
    ((words.filter (· != [])).map fun word => word.length + 1).sum + words.count [] =
      (words.map fun word => word.length + 1).sum := by
  induction words with
  | nil => rfl
  | cons word words ih =>
      cases word with
      | nil =>
          rw [List.filter_cons_of_neg (by simp), List.count_cons_self, List.map_cons,
            List.sum_cons, ← ih, List.length_nil]
          omega
      | cons b word =>
          rw [List.filter_cons_of_pos (by simp), List.count_cons_of_ne (by simp), List.map_cons,
            List.sum_cons, List.map_cons, List.sum_cons, ← ih]
          omega

section

variable {host : Host}

/-- What `echo $3` prints for a text that the shell only divides into words. -/
theorem echo_words (hhost : host.Documented) (files : List CString) {text : CString}
    (h : ∀ b ∈ text, shellByte b = true) (hfirst : text.head? = some 123) :
    echo (words host files text) =
        [blank].intercalate ((text.splitOn blank).filter (· != [])) ++ [newline] ∧
      (text.splitOn blank).filter (· != []) ≠ [] := by
  have hprintable : ∀ b ∈ text, printableByte b = true := fun b hb => (shellByte_spec (h b hb)).1
  have hwords : ∀ word ∈ fields text, ∀ b ∈ word, shellByte b = true := by
    intro word hword b hb
    rw [fields] at hword
    exact h b (mem_of_mem_splitOnP (List.mem_of_mem_filter hword) b hb)
  have hglob : words host files text = fields text := by
    have hself : ∀ word ∈ fields text, host.glob files word = [word] := by
      intro word hword
      refine hhost.glob_word files word (fun b hb => ?_) (Or.inl fun hb => ?_)
      · obtain ⟨-, hslash, hstar, hquestion, -⟩ := shellByte_spec (hwords word hword b hb)
        exact ⟨hstar, hquestion, hslash⟩
      · exact (shellByte_spec (hwords word hword _ hb)).2.2.2.2 rfl
    rw [words, List.flatMap_congr hself, List.flatMap_singleton']
  obtain ⟨word, rest, hfields⟩ : ∃ word rest, fields text = (123 :: word) :: rest := by
    cases text with
    | nil => cases hfirst
    | cons b text =>
        rw [List.head?_cons, Option.some.injEq] at hfirst
        rw [fields_eq_filter hprintable, hfirst, List.splitOn_cons_eq_if_modifyHead]
        cases hsplit : text.splitOn blank with
        | nil => exact absurd hsplit (List.splitOn_ne_nil blank text)
        | cons word words => exact ⟨word, words.filter (· != []), by simp [blank, charByte]⟩
  rw [hglob, ← fields_eq_filter hprintable]
  constructor
  · apply echo_of_escapeFree
    · intro word hword
      apply escapeFree_of_not_mem
      intro hslash
      exact (shellByte_spec (hwords word hword _ hslash)).2.1 rfl
    · rw [hfields]
      intro hoption
      cases hoption
  · rw [hfields]
    exact List.cons_ne_nil _ _

/-- `wc -m` counts the bytes of ASCII text. -/
def CountsBytes (wc_m : CString → Nat) : Prop :=
  ∀ text, (∀ b ∈ text, printableByte b = true ∨ b = newline) → wc_m text = text.length

/-- The length that the installer gives to a body: too short by the blanks that the shell
drops, and too long by the newline of `echo`. -/
theorem contentLength_eq (hhost : host.Documented) {wc_m : CString → Nat}
    (hwc : CountsBytes wc_m) (files : List CString) {text : CString}
    (h : ∀ b ∈ text, shellByte b = true) (hfirst : text.head? = some 123) :
    ∃ n, contentLength host files wc_m text = decimalNat n ∧
      n + emptyWords text = text.length + 1 := by
  obtain ⟨hecho, hne⟩ := echo_words hhost files h hfirst
  have hbytes : ∀ b ∈ echo (words host files text), printableByte b = true ∨ b = newline := by
    intro b hb
    rw [hecho, List.mem_append, List.mem_singleton] at hb
    rcases hb with hb | rfl
    · left
      rcases mem_intercalate hb with rfl | ⟨word, hword, hmem⟩
      · rfl
      · have hpiece := List.mem_of_mem_filter hword
        rw [List.splitOn_eq_splitOnP] at hpiece
        exact (shellByte_spec (h b (mem_of_mem_splitOnP hpiece b hmem))).1
    · exact Or.inr rfl
  have hdigits : ∀ n, commandSubstitution (decimalNat n ++ [newline]) = decimalNat n := by
    intro n
    rw [commandSubstitution_newline]
    apply commandSubstitution_eq_self
    · exact fun hnul => absurd (isDigit_of_mem_decimalNat hnul) (by decide)
    · exact fun hline => absurd (isDigit_of_mem_decimalNat hline) (by decide)
  have hall : text.length + 1 = ((text.splitOn blank).map fun word => word.length + 1).sum := by
    rw [← length_intercalate blank (List.splitOn_ne_nil blank text), List.intercalate_splitOn]
  refine ⟨_, by rw [contentLength, hdigits], ?_⟩
  rw [hwc _ hbytes, hecho, List.length_append, List.length_singleton, length_intercalate blank hne,
    emptyWords, sum_filter_ne_nil, hall]

end

/-! ## The requests of the installer -/

/-- Characters of a value that neither the shell nor JSON interprets. -/
def valueByte (b : UInt8) : Bool :=
  shellByte b && b != quote && b != 125

/-- The host name has no blank, and the values are text. -/
structure Variables.Plain (v : Variables) : Prop where
  host : ∀ b ∈ v.API_HOST, printableByte b = true ∧ b ≠ blank
  values : ∀ b ∈ v.HOST_ARCH ++ v.HOST_DISTRIB ++ v.DISTRIB_RELEASE, valueByte b = true

/-- Printable text is on one line. -/
theorem oneLine_of_printable {line : CString} (h : ∀ b ∈ line, printableByte b = true) :
    OneLine line := by
  constructor
  · intro hnewline
    exact absurd (h newline hnewline) (by decide)
  · intro hlast
    exact absurd (h carriageReturn (List.mem_of_getLast? hlast)) (by decide)

/-- Header fields of printable text are plain. -/
theorem plainField_of_printable {name value : CString} (hname : name.all printableByte = true)
    (hcolon : charByte ':' ∉ name)
    (hvalue : ∀ b ∈ value, printableByte b = true) (hfirst : value.head? ≠ some blank) :
    PlainField (name, value) where
  name := hcolon
  value := hfirst
  line := by
    apply oneLine_of_printable
    intro b hb
    rw [fieldLine, List.mem_append, List.mem_append] at hb
    rcases hb with (hb | hb) | hb
    · exact List.all_eq_true.mp hname b hb
    · exact List.all_eq_true.mp (by decide : (ascii ": ").all printableByte = true) b hb
    · exact hvalue b hb

/-- The field at the end of the header. -/
theorem plainField_connection : PlainField (ascii "Connection", ascii "close") :=
  plainField_of_printable (by decide) (by decide) (List.all_eq_true.mp (by decide)) (by decide)

/-- The field with the host. -/
theorem Variables.Plain.hostField {v : Variables} (hv : v.Plain) :
    PlainField (ascii "Host", v.API_HOST) := by
  refine plainField_of_printable (by decide) (by decide) (fun b hb => (hv.host b hb).1) ?_
  intro hblank
  exact (hv.host blank (List.mem_of_head? hblank)).2 rfl

/-- The header of `get` is plain. -/
theorem Variables.Plain.getFields {v : Variables} (hv : v.Plain) :
    ∀ p ∈ getFields v.API_HOST, PlainField p := by
  intro p hp
  simp only [AlertProbe.getFields, List.mem_cons, List.not_mem_nil, or_false] at hp
  rcases hp with rfl | rfl
  · exact hv.hostField
  · exact plainField_connection

/-- The header of `put` is plain. -/
theorem Variables.Plain.sendFields {v : Variables} (hv : v.Plain) (n : Nat) :
    ∀ p ∈ sendFields v.API_HOST (decimalNat n), PlainField p := by
  intro p hp
  simp only [AlertProbe.sendFields, List.mem_cons, List.not_mem_nil, or_false] at hp
  rcases hp with rfl | rfl | rfl | rfl
  · exact hv.hostField
  · exact plainField_of_printable (by decide) (by decide)
      (List.all_eq_true.mp (by decide +kernel)) (by decide)
  · refine plainField_of_printable (by decide) (by decide) ?_ ?_
    · exact fun b hb => (wordByte_spec (plainByte_spec b (plainText_decimalNat n b hb)).1).1
    · intro hblank
      exact absurd (isDigit_of_mem_decimalNat (List.mem_of_head? hblank)) (by decide)
  · exact plainField_connection

/-- A request of `get` has no body. -/
theorem bodyLength_getFields (API_HOST : CString) :
    bodyLength ((getFields API_HOST).map readField) = some 0 := by
  have hhost : (ascii "content-length" == (ascii "Host").map lowerCase) = false := by decide
  have hconnection : (ascii "content-length" == (ascii "Connection").map lowerCase) = false := by
    decide
  simp only [bodyLength, getFields, readField, List.map_cons, List.map_nil, List.lookup_cons, hhost,
    hconnection, List.lookup_nil, Option.map_none]

/-- A request of `put` has the body that its length says. -/
theorem bodyLength_sendFields (API_HOST : CString) (n : Nat) :
    bodyLength ((sendFields API_HOST (decimalNat n)).map readField) = some n := by
  have hhost : (ascii "content-length" == (ascii "Host").map lowerCase) = false := by decide
  have htype : (ascii "content-length" == (ascii "Content-Type").map lowerCase) = false := by
    decide
  have hlength : (ascii "content-length" == (ascii "Content-length").map lowerCase) = true := by
    decide
  have hnatural : natural (decimalNat n) = some (n, []) := by
    have hend : Delimited [] := nofun
    simpa using natural_decimalNat n hend
  simp only [bodyLength, sendFields, readField, List.map_cons, List.map_nil, List.lookup_cons,
    hhost, htype, hlength, Option.map_some, hnatural]

/-! ## The text of the asset -/

/-- The object that the asset is updated with. -/
def Variables.assetObject (v : Variables) : Json :=
  .object [("architecture".toList, .string (plainString v.HOST_ARCH)),
    ("distribution".toList, .string (plainString v.HOST_DISTRIB)),
    ("release".toList, .string (plainString v.DISTRIB_RELEASE))]

theorem valueByte_spec {b : UInt8} (hb : valueByte b = true) :
    shellByte b = true ∧ b ≠ quote ∧ b ≠ 125 := by
  simpa [valueByte, and_assoc] using hb

/-- The characters of a value need no escape. -/
theorem valueByte_char : ∀ b, valueByte b = true →
    plainChar (Char.ofNat b.toNat) = true ∧ charByte (Char.ofNat b.toNat) = b := by
  decide +kernel

/-- A value is spelled by its bytes. -/
theorem plainText_value {text : CString} (h : ∀ b ∈ text, valueByte b = true) :
    (Token.string (plainString text)).plain = true ∧
      (Token.string (plainString text)).plainText = quote :: (text ++ [quote]) := by
  constructor
  · rw [Token.plain, List.all_eq_true]
    intro c hc
    obtain ⟨b, hb, rfl⟩ := List.mem_map.mp hc
    exact (valueByte_char b (h b hb)).1
  · have hbytes : (plainString text).map charByte = text := by
      rw [plainString, List.map_map]
      exact (List.map_congr_left fun b hb => (valueByte_char b (h b hb)).2).trans (List.map_id _)
    rw [Token.plainText, hbytes]
    rfl

section

variable {v : Variables} (hv : v.Plain)

include hv

theorem Variables.Plain.arch : ∀ b ∈ v.HOST_ARCH, valueByte b = true :=
  fun b hb => hv.values b (List.mem_append_left _ (List.mem_append_left _ hb))

theorem Variables.Plain.distrib : ∀ b ∈ v.HOST_DISTRIB, valueByte b = true :=
  fun b hb => hv.values b (List.mem_append_left _ (List.mem_append_right _ hb))

theorem Variables.Plain.release : ∀ b ∈ v.DISTRIB_RELEASE, valueByte b = true :=
  fun b hb => hv.values b (List.mem_append_right _ hb)

/-- The text is the object without white space. -/
theorem Variables.Plain.assetJson_eq :
    v.assetObject.tokens.flatMap Token.plainText = v.assetJson := by
  have harchitecture : ascii "\x7b\"architecture\":\"" =
      123 :: quote :: (ascii "architecture" ++ [quote, charByte ':', quote]) := by decide
  have hdistribution : ascii "\",\"distribution\":\"" =
      quote :: charByte ',' :: quote :: (ascii "distribution" ++ [quote, charByte ':', quote]) := by
    decide
  have hrelease : ascii "\",\"release\":\"" =
      quote :: charByte ',' :: quote :: (ascii "release" ++ [quote, charByte ':', quote]) := by
    decide
  have hclose : ascii "\"\x7d" = [quote, 125] := by decide
  have hkey : ∀ s : String, (Token.string s.toList).plainText = quote :: (ascii s ++ [quote]) :=
    fun _ => rfl
  have hmark : ∀ b, (Token.mark b).plainText = [b] := fun _ => rfl
  have hcomma : comma.plainText = [charByte ','] := rfl
  simp only [Variables.assetObject, Json.tokens, memberTokens, List.intercalate_cons_cons,
    List.intercalate_singleton, List.flatMap_cons, List.flatMap_append, List.flatMap_nil, hkey,
    hmark, hcomma, (plainText_value hv.arch).2, (plainText_value hv.distrib).2,
    (plainText_value hv.release).2]
  simp only [Variables.assetJson, harchitecture, hdistribution, hrelease, hclose,
    List.append_assoc, List.cons_append, List.nil_append, List.append_nil]

/-- The text, with any white space behind it, is a text of the object. -/
theorem Variables.Plain.assetJson_text {space : CString}
    (hspace : ∀ b ∈ space, jsonSpace b = true) :
    v.assetObject.Text (v.assetJson ++ space) := by
  have hplain : ∀ token ∈ v.assetObject.tokens, token.plain = true := by
    have hkeys : (Token.string "architecture".toList).plain = true ∧
        (Token.string "distribution".toList).plain = true ∧
        (Token.string "release".toList).plain = true := by decide
    have hmark : ∀ b, (Token.mark b).plain = true := fun _ => rfl
    intro token htoken
    simp only [Variables.assetObject, Json.tokens, memberTokens, List.intercalate_cons_cons,
      List.intercalate_singleton, List.mem_cons, List.mem_append, List.not_mem_nil, or_false,
      comma] at htoken
    have harch := (plainText_value hv.arch).1
    have hdistrib := (plainText_value hv.distrib).1
    have hrelease := (plainText_value hv.release).1
    aesop
  have hlayout := (layout_plainText hplain).append (Layout.nil hspace)
  rw [List.append_nil, hv.assetJson_eq] at hlayout
  exact hlayout

/-- Neither the shell nor `echo` interprets the text. -/
theorem Variables.Plain.shellByte_assetJson : ∀ b ∈ v.assetJson, shellByte b = true := by
  have hmarks : (ascii "\x7b\"architecture\":\"" ++ ascii "\",\"distribution\":\"" ++
      ascii "\",\"release\":\"" ++ ascii "\"\x7d").all shellByte = true := by decide
  simp only [List.all_append, Bool.and_eq_true, List.all_eq_true] at hmarks
  obtain ⟨⟨⟨harchitecture, hdistribution⟩, hrelease⟩, hclose⟩ := hmarks
  intro b hb
  simp only [Variables.assetJson, List.mem_append] at hb
  rcases hb with (((((hb | hb) | hb) | hb) | hb) | hb) | hb
  · exact harchitecture b hb
  · exact (valueByte_spec (hv.arch b hb)).1
  · exact hdistribution b hb
  · exact (valueByte_spec (hv.distrib b hb)).1
  · exact hrelease b hb
  · exact (valueByte_spec (hv.release b hb)).1
  · exact hclose b hb

/-- The brace at the end of the text is the only one. -/
theorem Variables.Plain.assetJson_close :
    ∃ front, v.assetJson = front ++ [125] ∧ 125 ∉ front := by
  have hclose : ascii "\"\x7d" = [quote] ++ [125] := by decide
  have hmarks : 125 ∉ ascii "\x7b\"architecture\":\"" ∧ 125 ∉ ascii "\",\"distribution\":\"" ∧
      125 ∉ ascii "\",\"release\":\"" ∧ (125 : UInt8) ∉ [quote] := by decide
  refine ⟨_, by rw [Variables.assetJson, hclose, ← List.append_assoc], ?_⟩
  simp only [List.mem_append, not_or]
  exact ⟨⟨⟨⟨⟨⟨hmarks.1, fun hb => (valueByte_spec (hv.arch _ hb)).2.2 rfl⟩, hmarks.2.1⟩,
    fun hb => (valueByte_spec (hv.distrib _ hb)).2.2 rfl⟩, hmarks.2.2.1⟩,
    fun hb => (valueByte_spec (hv.release _ hb)).2.2 rfl⟩, hmarks.2.2.2⟩

end

/-- A mark stands in every text of tokens that it is one of. -/
theorem mark_mem_of_layout {tokens : List Token} {text : CString} (h : Layout tokens text)
    {b : UInt8} (hmark : Token.mark b ∈ tokens) : b ∈ text := by
  induction h with
  | nil => cases hmark
  | cons _ htoken _ ih =>
      rcases List.mem_cons.mp hmark with rfl | hmem
      · cases htoken
        simp
      · exact List.mem_append_right _ (ih hmem)

/-- The first bytes of the text with a line end behind it are a text of the object exactly when
all of the text is among them. -/
theorem Variables.Plain.assetObject_text_take_iff {v : Variables} (hv : v.Plain)
    (lineEnd : LineEnd) (n : Nat) :
    v.assetObject.Text ((v.assetJson ++ lineEnd.text).take n) ↔ v.assetJson.length ≤ n := by
  constructor
  · intro htext
    obtain ⟨front, hjson, hfront⟩ := hv.assetJson_close
    have hbrace : Token.mark 125 ∈ v.assetObject.tokens := by
      rw [Variables.assetObject, Json.tokens]
      exact List.mem_append_right _ (List.mem_singleton_self _)
    have hmem := mark_mem_of_layout htext hbrace
    by_contra hshort
    rw [hjson, List.length_append, List.length_singleton] at hshort
    have htake : (v.assetJson ++ lineEnd.text).take n = front.take n := by
      rw [hjson, List.append_assoc, List.take_append_of_le_length (by omega)]
    rw [htake] at hmem
    exact hfront (List.mem_of_mem_take hmem)
  · intro hlong
    have hspace : ∀ b ∈ lineEnd.text, jsonSpace b = true := by
      cases lineEnd <;> decide +kernel
    have htake : (v.assetJson ++ lineEnd.text).take n =
        v.assetJson ++ lineEnd.text.take (n - v.assetJson.length) := by
      rw [List.take_append, List.take_of_length_le hlong]
    rw [htake]
    exact hv.assetJson_text fun b hb => hspace b (List.mem_of_mem_take hb)

/-! ## What the API reads -/

/-- The paths of the requests. -/
theorem targetText_path {front back : String} (id : Nat) (hfront : TargetText (ascii front))
    (hback : TargetText (ascii back)) :
    TargetText (ascii front ++ decimalNat id ++ ascii back) := by
  have hdigit : ∀ b, isDigit b = false → b ∉ decimalNat id := by
    intro b hb hmem
    rw [isDigit_of_mem_decimalNat hmem] at hb
    cases hb
  simp only [TargetText, List.mem_append, not_or]
  exact ⟨⟨⟨hfront.1, hdigit _ rfl⟩, hback.1⟩, ⟨⟨hfront.2.1, hdigit _ rfl⟩, hback.2.1⟩,
    ⟨hfront.2.2, hdigit _ rfl⟩, hback.2.2⟩

section

variable {host : Host} (hhost : host.Documented) {wc_m : CString → Nat} (hwc : CountsBytes wc_m)
  {v : Variables} (hv : v.Plain) (lineEnd : LineEnd) (login password : Credential)

include hhost hwc hv

/-- The message that updates the asset. -/
theorem updateAsset_eq (LOGIN PASSWORD : CString) :
    ∃ n, n + emptyWords v.assetJson = v.assetJson.length + 1 ∧
      n ≤ (v.assetJson ++ lineEnd.text).length ∧
      updateAsset host wc_m lineEnd v LOGIN PASSWORD =
        message lineEnd (startLine (ascii "PUT")
            (ascii "/assets/" ++ decimalNat v.ASSET_ID ++ ascii "")
            (credentialQuery LOGIN PASSWORD) ::
          (sendFields v.API_HOST (decimalNat n)).map fieldLine) (v.assetJson ++ lineEnd.text) := by
  have hfirst : v.assetJson.head? = some 123 := rfl
  obtain ⟨n, hlength, hn⟩ := contentLength_eq hhost hwc [] hv.shellByte_assetJson hfirst
  have hempty : ascii "" = [] := rfl
  have hend : 1 ≤ lineEnd.text.length := by
    cases lineEnd <;> decide
  refine ⟨n, hn, ?_, ?_⟩
  · rw [List.length_append]
    omega
  · rw [updateAsset, putRequest, hlength, sendRequest_eq, hempty, List.append_nil]

/-- Every request of the installer is a message with the credentials in its query. -/
theorem installerRequests_cases {LOGIN PASSWORD request : CString}
    (hrequest : request ∈ installerRequests host wc_m lineEnd v LOGIN PASSWORD) :
    ∃ (method path : CString) (fields : List (CString × CString)) (length : Nat) (body : CString),
      TargetText method ∧ TargetText path ∧
      (∀ p ∈ fields, PlainField p) ∧ bodyLength (fields.map readField) = some length ∧
      length ≤ body.length ∧
      request = message lineEnd (startLine method path (credentialQuery LOGIN PASSWORD) ::
        fields.map fieldLine) body := by
  simp only [installerRequests, List.mem_cons, List.not_mem_nil, or_false] at hrequest
  rcases hrequest with hput | hpackages | hinformations
  · obtain ⟨n, _, hcomplete, hmessage⟩ := updateAsset_eq hhost hwc hv lineEnd LOGIN PASSWORD
    exact ⟨_, _, _, n, _, by decide, targetText_path _ (by decide) (by decide), hv.sendFields n,
      bodyLength_sendFields _ n, hcomplete, hput.trans hmessage⟩
  · refine ⟨_, _, _, 0, [], ?_, ?_, hv.getFields, bodyLength_getFields _, Nat.zero_le _,
      hpackages.trans (getRequest_eq _ _ _ _)⟩
    · decide
    · exact targetText_path _ (by decide) (by decide)
  · refine ⟨_, _, _, 0, [], ?_, ?_, hv.getFields, bodyLength_getFields _, Nat.zero_le _,
      hinformations.trans (getRequest_eq _ _ _ _)⟩
    · decide
    · exact targetText_path _ (by decide) (by decide)

/-- Whatever the request, the API reads the login and the password exactly when both are
unaltered. -/
theorem request_credentials_iff {request : CString}
    (hrequest : request ∈
      installerRequests host wc_m lineEnd v login.text password.text) :
    (∃ r, readRequest request = some r ∧ r.parameters = credentialParameters login password) ↔
      login.Unaltered ∧ password.Unaltered := by
  obtain ⟨method, path, fields, length, body, hmethod, hpath, hfields, hlength, hbody, rfl⟩ :=
    installerRequests_cases hhost hwc hv lineEnd hrequest
  exact readRequest_credentials_iff hmethod hpath hfields hlength hbody lineEnd login password

/-- With unaltered credentials the API reads the first bytes of the object. -/
theorem updateAsset_read (hlogin : login.Unaltered) (hpassword : password.Unaltered) :
    ∃ n r, n + emptyWords v.assetJson = v.assetJson.length + 1 ∧
      readRequest (updateAsset host wc_m lineEnd v login.text password.text) = some r ∧
      r.body = (v.assetJson ++ lineEnd.text).take n := by
  obtain ⟨n, hn, hcomplete, hmessage⟩ :=
    updateAsset_eq hhost hwc hv lineEnd login.text password.text
  have hmethod : TargetText (ascii "PUT") := by decide
  have hpath : TargetText (ascii "/assets/" ++ decimalNat v.ASSET_ID ++ ascii "") :=
    targetText_path _ (by decide) (by decide)
  have hread := readRequest_unaltered hmethod hpath (hv.sendFields n) (bodyLength_sendFields _ n)
    hcomplete lineEnd login password hlogin hpassword
  exact ⟨n, _, hn, (congrArg readRequest hmessage).trans hread, rfl⟩

/-- With unaltered credentials the API reads the object that the asset is updated with exactly
when the shell drops at most one blank of it: the newline that `echo` adds to what is counted
makes up for one. -/
theorem asset_delivered_iff (hlogin : login.Unaltered) (hpassword : password.Unaltered) :
    (∃ r, readRequest (updateAsset host wc_m lineEnd v login.text password.text) = some r ∧
      v.assetObject.Text r.body) ↔ emptyWords v.assetJson ≤ 1 := by
  obtain ⟨n, r, hn, hread, hbody⟩ :=
    updateAsset_read hhost hwc hv lineEnd login password hlogin hpassword
  simp only [hread, Option.some.injEq, exists_eq_left', hbody, hv.assetObject_text_take_iff]
  omega

end

/-- The variables of a machine with the given distribution. -/
def exampleVariables (HOST_DISTRIB : String) : Variables where
  ASSET_ID := 35
  PROBE_ID := 0
  API_HOST := ascii "127.0.0.1"
  HOST_ARCH := ascii "x86_64"
  HOST_DISTRIB := ascii HOST_DISTRIB
  DISTRIB_RELEASE := ascii "6.4"

/-- The login of the script. -/
def exampleLogin : Credential :=
  ⟨ascii "user@echoes.fr", by decide +kernel⟩

/-- A password with a sequence that `echo` makes a newline of. -/
def newlinePassword : Credential :=
  ⟨ascii "a\\nb", by decide +kernel⟩

/-- The API does not read the credentials of the first request. -/
theorem request_credentials_newline :
    ¬ ∃ r, readRequest (updateAsset exampleHost List.length .lf (exampleVariables "CentOS")
        exampleLogin.text newlinePassword.text) = some r ∧
      r.parameters = credentialParameters exampleLogin newlinePassword := by
  have hv : (exampleVariables "CentOS").Plain := ⟨by decide +kernel, by decide +kernel⟩
  rw [request_credentials_iff exampleHost_documented (fun _ _ => rfl) hv .lf exampleLogin
    newlinePassword List.mem_cons_self]
  rintro ⟨-, -, hfree⟩
  exact absurd hfree (by decide)

/-- Blanks in the name of a distribution. -/
theorem asset_delivered_blanks :
    (∃ r, readRequest (updateAsset exampleHost List.length .lf (exampleVariables "Red Hat")
        exampleLogin.text exampleLogin.text) = some r ∧
      (exampleVariables "Red Hat").assetObject.Text r.body) ∧
    ¬ ∃ r, readRequest (updateAsset exampleHost List.length .lf (exampleVariables "Red   Hat")
        exampleLogin.text exampleLogin.text) = some r ∧
      (exampleVariables "Red   Hat").assetObject.Text r.body := by
  have hone : (exampleVariables "Red Hat").Plain := ⟨by decide +kernel, by decide +kernel⟩
  have hthree : (exampleVariables "Red   Hat").Plain := ⟨by decide +kernel, by decide +kernel⟩
  have hunaltered : exampleLogin.Unaltered := ⟨by decide +kernel, by decide +kernel⟩
  rw [asset_delivered_iff exampleHost_documented (fun _ _ => rfl) hone .lf exampleLogin exampleLogin
      hunaltered hunaltered,
    asset_delivered_iff exampleHost_documented (fun _ _ => rfl) hthree .lf exampleLogin exampleLogin
      hunaltered hunaltered]
  decide +kernel

end AlertProbe
