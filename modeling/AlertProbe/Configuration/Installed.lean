import AlertProbe.Model.Configure

/-!
# From the installer to the probe

The installer writes the identifier of the probe and the token into `probe.conf`,
and the probe loads the file.  `sed` works on lines and replaces everything behind
an equals sign, wherever it finds the key; the probe goes by groups and pairs.  On
files in which the two keys stand at the starts of their lines, both mean the same.

Main results:

- Theorem `GKeyFile.Documented.line_edit`: what `sed` does to a line is an edit of its value.
- Theorem `load_configure`: what the probe is given of the file.
- Theorem `loadConf_configure_iff`: when the probe loads the file, and what it has
  then.
-/

namespace AlertProbe

open Foundations

/-! ## Replacing on a line -/

/-- In front of a match there is nothing to replace in a text without its first byte. -/
theorem replaceBehind_append {q : UInt8} {front : CString} (hfront : q ∉ front)
    (pattern value rest : CString) :
    replaceBehind (q :: pattern) value (front ++ rest) =
      front ++ replaceBehind (q :: pattern) value rest := by
  induction front with
  | nil => rfl
  | cons b front ih =>
      have hb : b ≠ q := fun heq => hfront (by simp [heq])
      have hrest := ih fun hmem => hfront (List.mem_cons_of_mem b hmem)
      have hmatch : (q :: pattern).isPrefixOf (b :: (front ++ rest)) = false := by
        simp [List.isPrefixOf, Ne.symm hb]
      rw [List.cons_append, replaceBehind, hmatch, hrest]
      rfl

/-- A line without a match stays as it is. -/
theorem replaceBehind_eq_self {pattern line : CString} (h : hasMatch pattern line = false)
    (value : CString) : replaceBehind pattern value line = line := by
  induction line with
  | nil => rfl
  | cons b line ih =>
      rw [hasMatch_cons, Bool.or_eq_false_iff] at h
      rw [replaceBehind, h.1, ih h.2]
      rfl

/-- Behind a match at the start everything is replaced. -/
theorem replaceBehind_match (q : UInt8) (pattern value rest : CString) :
    replaceBehind (q :: pattern) value (q :: pattern ++ rest) = q :: pattern ++ value := by
  have hmatch : (q :: pattern).isPrefixOf (q :: (pattern ++ rest)) = true := by
    rw [List.isPrefixOf_iff_prefix, ← List.cons_append]
    exact List.prefix_append _ _
  rw [List.cons_append, replaceBehind, if_pos hmatch]

/-- The bytes behind a replacement. -/
theorem mem_replaceBehind {pattern value line : CString} {b : UInt8}
    (h : b ∈ replaceBehind pattern value line) : b ∈ line ∨ b ∈ pattern ∨ b ∈ value := by
  induction line with
  | nil => cases h
  | cons c line ih =>
      rw [replaceBehind] at h
      split at h
      · exact Or.inr (List.mem_append.mp h)
      · rcases List.mem_cons.mp h with rfl | hmem
        · exact Or.inl List.mem_cons_self
        · rcases ih hmem with hline | hother
          · exact Or.inl (List.mem_cons_of_mem c hline)
          · exact Or.inr hother

/-- Only an empty line becomes one. -/
theorem replaceBehind_eq_nil {pattern value line : CString} (hpattern : pattern ≠ []) :
    replaceBehind pattern value line = [] ↔ line = [] := by
  cases line with
  | nil => simp [replaceBehind]
  | cons b line =>
      rw [replaceBehind]
      split <;> simp [hpattern]

/-! ## The library -/

/-- Documented behaviour of the library.  It reads the text line by line, and of a pair only the
value of `Encoding` matters.  A line with a number sign behind white space is a comment, and one
with a key in front of an equals sign is a pair.  A decimal number is an integer, and a text of
letters and digits is a string. -/
structure GKeyFile.Documented (reader : GKeyFile) : Prop where
  entries_lines : ∀ text,
    reader.entries text = readEntries reader.line reader.names none (linesOf newline text)
  groups_lines : ∀ text, reader.groups text = readGroups reader.line (linesOf newline text)
  line_comment : ∀ space rest, (∀ b ∈ space, asciiSpace b = true) →
    reader.line (space ++ charByte '#' :: rest) = .comment
  line_pair : ∀ b key value, (b :: key).any asciiSpace = false → charByte '=' ∉ b :: key →
    b ≠ charByte '#' → b ≠ charByte '[' →
    ∃ v, reader.line (b :: key ++ charByte '=' :: value) = .pair (b :: key) v ∧
      (value.any asciiSpace = false → v = value)
  pair_value : ∀ e : KeyFileEntry, e.key ≠ ascii "Encoding" → ∀ value,
    reader.names.pair { e with value := value } = reader.names.pair e
  integer_decimal : ∀ group key n, n < 2 ^ 31 →
    reader.integer group key (decimalNat n) = .value (Int32.ofNat n)
  string_plain : ∀ group key text, (∀ b ∈ text, alphanumeric b = true) →
    reader.string group key text = .text text

/-! ## The lines of the file -/

/-- The new value of a key. -/
def Settings.value (s : Settings) (key old : CString) : CString :=
  if key = ascii "probe_id" then decimalNat s.PROBE_ID
  else if key = ascii "token" then s.TOKEN
  else old

/-- The keys of a file, with the values that the installer writes. -/
def Settings.written (s : Settings) (keyFile : KeyFile) : KeyFile :=
  { keyFile with
    probe_id := .value (Int32.ofNat s.PROBE_ID)
    token := .text s.TOKEN }

/-- Lines on which the two keys mean the same to `sed` and to the probe: comments, lines on which
neither has one, and lines that begin with one. -/
def GKeyFile.Configurable (reader : GKeyFile) (line : CString) : Prop :=
  (line.dropWhile asciiSpace).head? = some (charByte '#') ∨
    (hasMatch (ascii "probe_id=") line = false ∧ hasMatch (ascii "token=") line = false ∧
      (reader.line line).key ≠ some (ascii "probe_id") ∧
      (reader.line line).key ≠ some (ascii "token")) ∨
    ascii "probe_id=" <+: line ∨ ascii "token=" <+: line

instance (reader : GKeyFile) (line : CString) : Decidable (reader.Configurable line) :=
  inferInstanceAs (Decidable (_ ∨ _ ∨ _ ∨ _))

/-- Letters and digits are no white space. -/
theorem any_asciiSpace_of_alphanumeric {text : CString} (h : ∀ b ∈ text, alphanumeric b = true) :
    text.any asciiSpace = false := by
  have hbytes : ∀ b, asciiSpace b = true → alphanumeric b = false := by decide +kernel
  rw [List.any_eq_false]
  intro b hb hspace
  exact absurd (h b hb) (by simp [hbytes b hspace])

section

variable (s : Settings)

/-- The digits of the identifier. -/
theorem Settings.probeID_plain : ∀ b ∈ decimalNat s.PROBE_ID, alphanumeric b = true := by
  intro b hb
  simp [alphanumeric, isDigit_of_mem_decimalNat hb]

/-- What `sed` makes of a line with the identifier. -/
theorem Settings.edit_probe_id (rest : CString) :
    s.edit (ascii "probe_id=" ++ rest) = ascii "probe_id=" ++ decimalNat s.PROBE_ID := by
  have hpattern : ascii "probe_id=" = charByte 'p' :: ascii "robe_id=" := rfl
  have htoken : ascii "token=" = charByte 't' :: ascii "oken=" := rfl
  have hfree : charByte 't' ∉ ascii "probe_id=" ++ decimalNat s.PROBE_ID := by
    rw [List.mem_append, not_or]
    refine ⟨by decide, fun hmem => ?_⟩
    exact absurd (isDigit_of_mem_decimalNat hmem) (by decide)
  have hself := replaceBehind_append hfree (ascii "oken=") s.TOKEN []
  rw [replaceBehind, List.append_nil] at hself
  rw [Settings.edit, hpattern, replaceBehind_match, ← hpattern, htoken, hself]

/-- What `sed` makes of a line with the token. -/
theorem Settings.edit_token (rest : CString) :
    s.edit (ascii "token=" ++ rest) = ascii "token=" ++ s.TOKEN := by
  have hpattern : ascii "probe_id=" = charByte 'p' :: ascii "robe_id=" := rfl
  have htoken : ascii "token=" = charByte 't' :: ascii "oken=" := rfl
  have hfree : charByte 'p' ∉ ascii "token=" := by decide
  rw [Settings.edit, hpattern, replaceBehind_append hfree, htoken, replaceBehind_match]

section

variable {reader : GKeyFile} (hreader : reader.Documented)

include hreader

/-- A line with the identifier, and with the token. -/
theorem GKeyFile.Documented.line_key (rest : CString) :
    (∃ v, reader.line (ascii "probe_id=" ++ rest) = .pair (ascii "probe_id") v ∧
      (rest.any asciiSpace = false → v = rest)) ∧
    ∃ v, reader.line (ascii "token=" ++ rest) = .pair (ascii "token") v ∧
      (rest.any asciiSpace = false → v = rest) := by
  constructor
  · exact hreader.line_pair (charByte 'p') (ascii "robe_id") rest (by decide) (by decide)
      (by decide) (by decide)
  · exact hreader.line_pair (charByte 't') (ascii "oken") rest (by decide) (by decide)
      (by decide) (by decide)

/-- What `sed` does to a line is an edit of its value. -/
theorem GKeyFile.Documented.line_edit {line : CString} (h : reader.Configurable line) :
    reader.line (s.edit line) = (reader.line line).setValues s.value := by
  have hpattern : ascii "probe_id=" = charByte 'p' :: ascii "robe_id=" := rfl
  have htokenPattern : ascii "token=" = charByte 't' :: ascii "oken=" := rfl
  rcases h with hcomment | ⟨hid, htoken, hidKey, htokenKey⟩ | ⟨rest, rfl⟩ | ⟨rest, rfl⟩
  · obtain ⟨rest, hrest⟩ : ∃ rest, line.dropWhile asciiSpace = charByte '#' :: rest := by
      cases hdrop : line.dropWhile asciiSpace with
      | nil => simp [hdrop] at hcomment
      | cons b rest =>
          rw [hdrop, List.head?_cons, Option.some.injEq] at hcomment
          exact ⟨rest, by rw [hcomment]⟩
    have hspace : ∀ b ∈ line.takeWhile asciiSpace, asciiSpace b = true :=
      fun b hb => List.mem_takeWhile_imp hb
    have hline : line = line.takeWhile asciiSpace ++ [charByte '#'] ++ rest := by
      rw [List.append_assoc, List.singleton_append, ← hrest, List.takeWhile_append_dropWhile]
    have hfree : ∀ q, asciiSpace q = false → q ≠ charByte '#' →
        q ∉ line.takeWhile asciiSpace ++ [charByte '#'] := by
      intro q hq hnumber hmem
      rcases List.mem_append.mp hmem with hmem | hmem
      · rw [hspace q hmem] at hq
        cases hq
      · exact hnumber (List.mem_singleton.mp hmem)
    have hedit : ∃ rest', s.edit line = line.takeWhile asciiSpace ++ charByte '#' :: rest' := by
      rw [hline, Settings.edit, hpattern, htokenPattern,
        replaceBehind_append (hfree _ rfl (by decide)),
        replaceBehind_append (hfree _ rfl (by decide)), ← hline]
      exact ⟨_, by rw [List.append_assoc, List.singleton_append]⟩
    obtain ⟨rest', hrest'⟩ := hedit
    have hself : reader.line line = .comment := by
      rw [hline, List.append_assoc, List.singleton_append]
      exact hreader.line_comment _ rest hspace
    rw [hrest', hreader.line_comment _ rest' hspace, hself]
    rfl
  · have hself : s.edit line = line := by
      rw [Settings.edit, replaceBehind_eq_self hid, replaceBehind_eq_self htoken]
    rw [hself]
    cases hkind : reader.line line with
    | pair key old =>
        rw [hkind, KeyFileLine.key] at hidKey htokenKey
        have hkeys : key ≠ ascii "probe_id" ∧ key ≠ ascii "token" :=
          ⟨fun heq => hidKey (by rw [heq]), fun heq => htokenKey (by rw [heq])⟩
        simp [KeyFileLine.setValues, Settings.value, hkeys.1, hkeys.2]
    | comment => rfl
    | group name => rfl
    | invalid => rfl
  · obtain ⟨old, hold, -⟩ := (hreader.line_key rest).1
    obtain ⟨new, hnew, hvalue⟩ := (hreader.line_key (decimalNat s.PROBE_ID)).1
    rw [s.edit_probe_id, hnew, hold,
      hvalue (any_asciiSpace_of_alphanumeric s.probeID_plain)]
    rfl
  · obtain ⟨old, hold, -⟩ := (hreader.line_key rest).2
    obtain ⟨new, hnew, hvalue⟩ := (hreader.line_key s.TOKEN).2
    have hkey : ascii "token" ≠ ascii "probe_id" := by decide
    rw [s.edit_token, hnew, hold, hvalue (any_asciiSpace_of_alphanumeric s.token_plain)]
    simp [KeyFileLine.setValues, Settings.value, hkey]

end

end

/-! ## The file -/

/-- The edited text is divided where the text is. -/
theorem splitOn_configure (s : Settings) (text : CString) :
    (configure s text).splitOn newline = (text.splitOn newline).map s.edit := by
  have hpieces : ∀ line ∈ (text.splitOn newline).map s.edit, newline ∉ line := by
    intro line hline hmem
    rcases List.mem_map.mp hline with ⟨piece, hpiece, rfl⟩
    rcases mem_replaceBehind hmem with hmem | hpattern | hvalue
    · rcases mem_replaceBehind hmem with hmem | hpattern | hvalue
      · exact not_mem_of_mem_splitOn hpiece hmem
      · exact absurd hpattern (by decide)
      · exact absurd (isDigit_of_mem_decimalNat hvalue) (by decide)
    · exact absurd hpattern (by decide)
    · exact absurd (s.token_plain newline hvalue) (by decide)
  exact List.splitOn_intercalate _ hpieces (by simp)

/-- `sed` makes no lines and takes none away. -/
theorem linesOf_configure (s : Settings) (text : CString) :
    linesOf newline (configure s text) = (linesOf newline text).map s.edit := by
  have hempty : ∀ line, s.edit line = [] ↔ line = [] := by
    intro line
    rw [Settings.edit, replaceBehind_eq_nil (by decide), replaceBehind_eq_nil (by decide)]
  have hlast : (((text.splitOn newline).map s.edit).getLast? = some []) ↔
      (text.splitOn newline).getLast? = some [] := by
    rw [List.getLast?_map, Option.map_eq_some_iff]
    constructor
    · rintro ⟨line, hline, hnil⟩
      rw [hline, (hempty line).mp hnil]
    · intro hnil
      exact ⟨[], hnil, (hempty []).mpr rfl⟩
  rw [linesOf, splitOn_configure, linesOf]
  by_cases hend : (text.splitOn newline).getLast? = some []
  · rw [if_pos (hlast.mpr hend), if_pos hend, List.map_dropLast]
  · rw [if_neg fun h => hend (hlast.mp h), if_neg hend]

section

variable {reader : GKeyFile} (hreader : reader.Documented) {s : Settings} {text : CString}
  (htext : ∀ line ∈ linesOf newline text, reader.Configurable line)

include hreader htext

/-- The pairs of the file that the installer leaves. -/
theorem entries_configure :
    reader.entries (configure s text) =
      (reader.entries text).map (List.map (KeyFileEntry.setValue s.value)) := by
  rw [hreader.entries_lines, hreader.entries_lines, linesOf_configure]
  apply readEntries_edit
  · exact fun line hline => hreader.line_edit s (htext line hline)
  · intro e
    by_cases hkey : e.key = ascii "Encoding"
    · have hid : ascii "Encoding" ≠ ascii "probe_id" := by decide
      have htoken : ascii "Encoding" ≠ ascii "token" := by decide
      have hself : e.setValue s.value = e := by
        rw [KeyFileEntry.setValue, Settings.value, hkey, if_neg hid, if_neg htoken, ← hkey]
      rw [hself]
    · exact hreader.pair_value e hkey _

variable {entries : List KeyFileEntry}
  (hread : reader.entries text = some entries)

include hread

/-- What the probe is given of the file that the installer leaves. -/
theorem load_configure (hid : s.PROBE_ID < 2 ^ 31)
    (hidKey : (lookupEntry entries (ascii "probe") (ascii "probe_id")).isSome)
    (htokenKey : (lookupEntry entries (ascii "probe") (ascii "token")).isSome) :
    reader.load (configure s text) =
      .ok (s.written (reader.keyFile (reader.groups text) entries)) := by
  have hentries := @entries_configure _ hreader s _ htext
  rw [hread, Option.map_some] at hentries
  have hgroups : reader.groups (configure s text) = reader.groups text := by
    rw [hreader.groups_lines, hreader.groups_lines, linesOf_configure]
    exact readGroups_edit fun line hline => hreader.line_edit s (htext line hline)
  have hkept : ∀ key old, key ≠ ascii "probe_id" → key ≠ ascii "token" →
      s.value key old = old := by
    intro key old hnotId hnotToken
    rw [Settings.value, if_neg hnotId, if_neg hnotToken]
  have hother : ∀ group key, key ≠ ascii "probe_id" → key ≠ ascii "token" →
      lookupEntry (entries.map (KeyFileEntry.setValue s.value)) group key =
        lookupEntry entries group key := by
    intro group key hnotId hnotToken
    rw [lookupEntry_map]
    cases lookupEntry entries group key with
    | none => rfl
    | some old => rw [Option.map_some, hkept key old hnotId hnotToken]
  have hnewId : lookupEntry (entries.map (KeyFileEntry.setValue s.value)) (ascii "probe")
      (ascii "probe_id") = some (decimalNat s.PROBE_ID) := by
    rcases Option.isSome_iff_exists.mp hidKey with ⟨old, hold⟩
    rw [lookupEntry_map, hold, Option.map_some, Settings.value, if_pos rfl]
  have hnewToken : lookupEntry (entries.map (KeyFileEntry.setValue s.value)) (ascii "probe")
      (ascii "token") = some s.TOKEN := by
    rcases Option.isSome_iff_exists.mp htokenKey with ⟨old, hold⟩
    rw [lookupEntry_map, hold, Option.map_some, Settings.value, if_neg (by decide), if_pos rfl]
  rw [GKeyFile.load, hentries, hgroups]
  simp only [Settings.written, GKeyFile.keyFile, GKeyFile.getInteger, GKeyFile.getString, hnewId,
    hnewToken,
    hreader.integer_decimal _ _ _ hid, hreader.string_plain _ _ _ s.token_plain,
    hother _ (ascii "probe_plugin_dir") (by decide) (by decide),
    hother _ (ascii "transport_proto") (by decide) (by decide),
    hother _ (ascii "transport_message_version") (by decide) (by decide),
    hother _ (ascii "engine_fqdn") (by decide) (by decide),
    hother _ (ascii "engine_port") (by decide) (by decide)]

/-- Whatever the file held before, the probe that loads it has the identifier and the token that
the installer wrote, and loads the rest as before.  It does so exactly when the strings fit. -/
theorem loadConf_configure_iff (hid : s.PROBE_ID < 2 ^ 31)
    (hidKey : (lookupEntry entries (ascii "probe") (ascii "probe_id")).isSome)
    (htokenKey : (lookupEntry entries (ascii "probe") (ascii "token")).isSome)
    {keyFile : KeyFile}
    (hkeyFile : keyFile = s.written (reader.keyFile (reader.groups text) entries))
    (build : Build) (confPath : CString) (conf : Conf) (result : LoadResult) :
    loadConf build confPath (reader.load (configure s text)) conf = some result ∧
        result.status = exitSuccess ↔
      s.TOKEN.length < 25 ∧ (keyFile.pluginDir build).length < 255 ∧
        keyFile.engineFQDN.length < 255 ∧
        result = ⟨exitSuccess,
          keyFile.loadedConf build (Int32.ofNat s.PROBE_ID) s.TOKEN,
          keyFile.loadedLogs confPath⟩ := by
  rw [load_configure hreader htext hread hid hidKey htokenKey, ← hkeyFile, loadConf_eq_some]
  have hprobe : keyFile.probe_id = .value (Int32.ofNat s.PROBE_ID) := by
    rw [hkeyFile]
    rfl
  have htoken : keyFile.token = .text s.TOKEN := by
    rw [hkeyFile]
    rfl
  rw [hprobe, htoken]
  constructor
  · rintro ⟨probeID, token, hprobeID, htoken, hfits, hdir, hfqdn, hresult⟩
    rw [IntegerValue.value.injEq] at hprobeID
    rw [StringValue.value?, Option.some.injEq] at htoken
    rw [← hprobeID, ← htoken] at hresult
    rw [← htoken] at hfits
    exact ⟨hfits, hdir, hfqdn, hresult⟩
  · rintro ⟨hfits, hdir, hfqdn, hresult⟩
    exact ⟨_, _, rfl, rfl, hfits, hdir, hfqdn, hresult⟩

end

/-- A reader that accepts all names, and strings without backslashes. -/
def exampleReader : GKeyFile where
  line := keyFileLine
  names := ⟨fun _ => true, fun _ => true⟩
  entries text :=
    readEntries keyFileLine ⟨fun _ => true, fun _ => true⟩ none (linesOf newline text)
  groups text := readGroups keyFileLine (linesOf newline text)
  integer _ _ raw :=
    match natural raw with
    | some (n, []) => if n < 2 ^ 31 then .value (Int32.ofNat n) else .error (ascii "out of range")
    | _ => .error (ascii "not a number")
  string _ _ raw :=
    if backslash ∈ raw then .invalidEscape raw (ascii "invalid escape") else .text raw
  missing _ _ key := key
  loadError text := text

/-- It behaves as documented. -/
theorem exampleReader_documented : exampleReader.Documented where
  entries_lines _ := rfl
  groups_lines _ := rfl
  line_comment _ rest hspace := keyFileLine_comment hspace rest
  line_pair b key value hspace hequals hnumber hbracket :=
    keyFileLine_pair hspace hequals ⟨b, key, rfl, hnumber, hbracket⟩ value
  pair_value _ _ _ := rfl
  integer_decimal _ _ n hn := by
    have hend : Delimited [] := nofun
    have hnatural : natural (decimalNat n) = some (n, []) := by
      simpa using natural_decimalNat n hend
    simp only [exampleReader, hnatural, if_pos hn]
  string_plain _ _ text h := by
    have hslash : backslash ∉ text := by
      intro hmem
      exact absurd (h backslash hmem) (by decide)
    simp only [exampleReader, if_neg hslash]

/-- A file with a token that is too long for its field. -/
def exampleConfText : CString :=
  ascii ("[probe]\n# token=\nprobe_id=0\ntoken=abcdefghijklmnopqrstuvwxyz123456789\n" ++
    "probe_plugin_dir=/opt/\n[transport]\ntransport_proto=0\ntransport_message_version=3\n" ++
    "[engine]\nengine_fqdn=localhost\nengine_port=443\n")

/-- The values that the installer writes into it. -/
def exampleSettings : Settings :=
  ⟨35, ascii "abcd1234", by decide +kernel⟩

/-- The pairs of the file. -/
def exampleEntries : List KeyFileEntry :=
  [⟨ascii "probe", ascii "probe_id", ascii "0"⟩,
    ⟨ascii "probe", ascii "token", ascii "abcdefghijklmnopqrstuvwxyz123456789"⟩,
    ⟨ascii "probe", ascii "probe_plugin_dir", ascii "/opt/"⟩,
    ⟨ascii "transport", ascii "transport_proto", ascii "0"⟩,
    ⟨ascii "transport", ascii "transport_message_version", ascii "3"⟩,
    ⟨ascii "engine", ascii "engine_fqdn", ascii "localhost"⟩,
    ⟨ascii "engine", ascii "engine_port", ascii "443"⟩]

/-- They are read from it. -/
theorem entries_exampleConfText :
    exampleReader.entries exampleConfText = some exampleEntries := by
  decide +kernel

/-- Its lines can be edited. -/
theorem configurable_exampleConfText :
    ∀ line ∈ linesOf newline exampleConfText, exampleReader.Configurable line := by
  decide +kernel

/-- What the probe has of the file. -/
def exampleConf : Conf :=
  ⟨35, 443, 0, 3, ascii "/opt/", ascii "localhost", ascii "abcd1234"⟩

/-- The probe loads what the installer has written. -/
theorem loadConf_configure_example :
    loadConf .release (ascii "probe.conf")
        (exampleReader.load (configure exampleSettings exampleConfText)) CONF_INITIALIZER =
      some ⟨exitSuccess, exampleConf, []⟩ := by
  refine ((loadConf_configure_iff exampleReader_documented configurable_exampleConfText
    entries_exampleConfText (by decide) (by decide) (by decide) rfl .release
    (ascii "probe.conf") CONF_INITIALIZER _).mpr
      ⟨by decide, by decide +kernel, by decide +kernel, ?_⟩).1
  decide +kernel

end AlertProbe
