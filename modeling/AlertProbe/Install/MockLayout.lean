import AlertProbe.Install.PlainLines

/-!
# The layout of the mock

`mock_json_content` prints a package over several lines, with one member on each
and the nested object in the middle; `get` puts the braces of an object on lines
of their own and the square brackets on the first and the last line.  Documents
of this layout are divided into blocks, whatever the number of their packages.

Main results:

- Theorems `mockObject_tokens` and `mockObjects_tokens`: the lines spell the values
  of the objects.
- Theorem `mockObject_open`: the braces of an object are balanced at its last line
  and not before.
- Theorem `packageBlock_mockObject`: the lines of one object are a block.
- Theorem `mock_packages_installed`: documents of this layout are installed.
-/

namespace AlertProbe

open Foundations

/-! ## The documents -/

/-- A package as the mock describes it; the texts are plain, and none of them is one of the keys
that the installer searches for. -/
structure MockPackage where
  id : Option Nat
  name : CString
  version : CString
  base : CString
  rpm : Bool
  content : CString
  plain_name : PlainText name
  plain_version : PlainText version
  plain_base : PlainText base
  no_key : ∀ text ∈ [name, version, content],
    text ≠ ascii "filename" ∧ text ≠ ascii "content"
  content_ne_nil : content ≠ []
  base64 : isBase64 content = true

namespace MockPackage

/-- `deb` or `rpm`. -/
def type (p : MockPackage) : CString :=
  ascii (if p.rpm then "rpm" else "deb")

/-- The name of the package file. -/
def filename (p : MockPackage) : CString :=
  p.base ++ charByte '.' :: p.type

/-- What the API delivers of it. -/
def package (p : MockPackage) : Package where
  filename := p.filename
  content := p.content
  base64 := p.base64

end MockPackage

/-- The lines that `mock_json_content` appends. -/
def mock_json_content (p : MockPackage) : List TokenLine :=
  [memberLine 1 "name" p.name [charByte ','],
    memberLine 1 "version" p.version [charByte ','],
    nestedLine 1 "package",
    memberLine 2 "filename" p.filename [charByte ','],
    memberLine 2 "content" p.content [charByte ','],
    memberLine 2 "version" (ascii "1") [],
    markLine 1 [125]]

/-- The lines that `get` appends for an object. -/
def mockObject (p : MockPackage) (tail : CString) : List TokenLine :=
  markLine 0 [123] ::
    ((match p.id with
      | none => []
      | some id => [numberLine 1 "id" id [charByte ',']]) ++
    mock_json_content p ++ [markLine 0 (125 :: tail)])

/-- The objects, with commas between them; `get` leaves out those between the addons. -/
def mockObjects : List MockPackage → List TokenLine
  | [] => []
  | [p] => mockObject p []
  | p :: q :: packages => mockObject p [charByte ','] ++ mockObjects (q :: packages)

/-- The array, with its square brackets on lines of their own. -/
def mockLines (packages : List MockPackage) : List TokenLine :=
  markLine 0 [charByte '['] :: (mockObjects packages ++ [markLine 0 [charByte ']']])

/-- The members of the nested object. -/
def packageMembers (p : MockPackage) : List (List Char × Json) :=
  [("filename".toList, .string (plainString p.filename)),
    ("content".toList, .string (plainString p.content)),
    ("version".toList, .string "1".toList)]

/-- The value of an object. -/
def mockJson (p : MockPackage) : Json :=
  .object
    ((match p.id with
      | none => []
      | some id => [("id".toList, .number ⟨false, id, none, none⟩)]) ++
    [("name".toList, .string (plainString p.name)),
      ("version".toList, .string (plainString p.version)),
      ("package".toList, .object (packageMembers p))])

/-- The lines of an object have the tokens of its value. -/
theorem mockObject_tokens (p : MockPackage) (tail : CString) :
    ((mockObject p tail).flatMap fun line => line.groups.flatten) =
      (mockJson p).tokens ++ tail.map .mark := by
  have hone : plainString (ascii "1") = "1".toList := rfl
  unfold mockObject mockJson
  cases p.id with
  | none =>
      simp [mock_json_content, packageMembers, markLine, keyLine, memberLine, nestedLine,
        Json.tokens, memberTokens, comma, hone]
  | some id =>
      simp [mock_json_content, packageMembers, markLine, keyLine, memberLine, numberLine,
        nestedLine, Json.tokens, memberTokens, comma, hone]

/-- The lines of the objects have the tokens of their values. -/
theorem mockObjects_tokens (packages : List MockPackage) :
    ((mockObjects packages).flatMap fun line => line.groups.flatten) =
      [comma].intercalate (itemTokens (packages.map mockJson)) := by
  induction packages with
  | nil => rfl
  | cons p packages ih =>
      cases packages with
      | nil =>
          have hone := mockObject_tokens p []
          simpa [mockObjects, itemTokens] using hone
      | cons q packages =>
          rw [mockObjects, List.flatMap_append, mockObject_tokens, ih]
          simp only [List.map_cons, itemTokens, List.intercalate_cons_cons]
          rfl

namespace MockPackage

variable (p : MockPackage)

/-- The two types. -/
theorem type_cases :
    p.rpm = true ∧ p.type = ascii "rpm" ∨ p.rpm = false ∧ p.type = ascii "deb" := by
  rw [type]
  cases p.rpm with
  | false => exact Or.inr ⟨rfl, rfl⟩
  | true => exact Or.inl ⟨rfl, rfl⟩

/-- The type is a plain word without a dot. -/
theorem type_spec : PlainText p.type ∧ PlainWord p.type ∧ charByte '.' ∉ p.type := by
  have hspec : ∀ type ∈ [ascii "rpm", ascii "deb"], type ≠ [] ∧ type.all plainByte = true ∧
      type ≠ ascii "-n" ∧ charByte '.' ∉ type := by decide
  have htype : p.type ∈ [ascii "rpm", ascii "deb"] := by
    rcases p.type_cases with ⟨-, htype⟩ | ⟨-, htype⟩ <;> simp [htype]
  obtain ⟨hne, hplain, hoption, hdot⟩ := hspec p.type htype
  have htext : PlainText p.type := List.all_eq_true.mp hplain
  exact ⟨htext, htext.word hne hoption, hdot⟩

/-- The file name is plain. -/
theorem plain_filename : PlainText p.filename := by
  intro b hb
  rcases List.mem_append.mp hb with hb | hb
  · exact p.plain_base b hb
  · rcases List.mem_cons.mp hb with rfl | hb
    · rfl
    · exact p.type_spec.1 b hb

/-- The content is plain. -/
theorem plain_content : PlainText p.content := by
  have hbase64 := p.base64
  simp only [isBase64, Bool.and_eq_true, List.all_eq_true, Bool.or_eq_true, beq_iff_eq] at hbase64
  intro b hb
  rw [← List.rdropWhile_append_rtakeWhile (p := (· == charByte '=')) (l := p.content)] at hb
  rcases List.mem_append.mp hb with hb | hb
  · have hbody := hbase64.2 b hb
    rcases hbody with (halnum | rfl) | rfl
    · simp [plainByte, halnum]
    · rfl
    · rfl
  · have hpad := List.mem_rtakeWhile_imp hb
    rw [beq_iff_eq] at hpad
    rw [hpad]
    rfl

/-- The file name is not one of the keys. -/
theorem filename_no_key :
    p.filename ≠ ascii "filename" ∧ p.filename ≠ ascii "content" := by
  have hdot : charByte '.' ∈ p.filename := by simp [filename]
  constructor
  · intro heq
    rw [heq] at hdot
    exact absurd hdot (by decide)
  · intro heq
    rw [heq] at hdot
    exact absurd hdot (by decide)

end MockPackage

/-! ## The lines of an object -/

/-- The keys of an object are plain. -/
theorem plainText_key : ∀ key ∈ ["id", "name", "version", "package", "filename", "content"],
    PlainText (ascii key) := by
  intro key hkey b hb
  have hall : ∀ key ∈ ["id", "name", "version", "package", "filename", "content"],
      (ascii key).all plainByte = true := by decide
  exact List.all_eq_true.mp (hall key hkey) b hb

/-- The version of a nested object is plain. -/
theorem plainText_one : PlainText (ascii "1") :=
  List.forall_mem_singleton.mpr rfl

/-- The words of `mock_json_content` are plain. -/
theorem mock_json_content_plain (p : MockPackage) :
    ∀ line ∈ mock_json_content p, ∀ word ∈ line.words, PlainWord word := by
  simp only [mock_json_content, List.forall_mem_cons]
  refine ⟨?_, ?_, ?_, ?_, ?_, ?_, ?_, List.forall_mem_nil _⟩
  · exact memberLine_plain 1 (plainText_key "name" (by decide)) p.plain_name memberEnd_comma
  · exact memberLine_plain 1 (plainText_key "version" (by decide)) p.plain_version memberEnd_comma
  · exact keyLine_plain 1 (plainText_key "package" (by decide)) plainWord_open
  · exact memberLine_plain 2 (plainText_key "filename" (by decide)) p.plain_filename memberEnd_comma
  · exact memberLine_plain 2 (plainText_key "content" (by decide)) p.plain_content memberEnd_comma
  · exact memberLine_plain 2 (plainText_key "version" (by decide)) plainText_one (Or.inl rfl)
  · exact markLine_plain 1 (plainWord_close (Or.inl rfl))

/-- The words of an object are plain. -/
theorem mockObject_plain (p : MockPackage) {tail : CString} (htail : MemberEnd tail) :
    ∀ line ∈ mockObject p tail, ∀ word ∈ line.words, PlainWord word := by
  intro line hline
  simp only [mockObject, List.mem_cons, List.mem_append, List.not_mem_nil, or_false] at hline
  rcases hline with rfl | (hid | hcontent) | rfl
  · exact markLine_plain 0 plainWord_open
  · cases hp : p.id with
    | none =>
        rw [hp] at hid
        cases hid
    | some id =>
        rw [hp] at hid
        rw [List.mem_singleton.mp hid]
        exact numberLine_plain 1 id (plainText_key "id" (by decide)) (Or.inr rfl)
  · exact mock_json_content_plain p line hcontent
  · exact markLine_plain 0 (plainWord_close htail)

/-- The braces that the lines of an object open and close. -/
theorem mockObject_braces (p : MockPackage) {tail : CString} (htail : MemberEnd tail) :
    (mockObject p tail).map lineBraces =
      1 :: ((p.id.toList.map fun _ => 0) ++ [0, 0, 1, 0, 0, 0, -1, -1]) := by
  have hopen : lineBraces (markLine 0 [123]) = 1 := by
    rw [lineBraces, shownLine_markLine]
    rfl
  have hclose : ∀ indent tail, MemberEnd tail →
      lineBraces (markLine indent (125 :: tail)) = -1 := by
    intro indent tail htail
    rw [lineBraces, shownLine_markLine]
    rcases htail with rfl | rfl <;> rfl
  have hcontent : (mock_json_content p).map lineBraces = [0, 0, 1, 0, 0, 0, -1] := by
    simp only [mock_json_content, List.map_cons, List.map_nil,
      lineBraces_memberLine 1 (plainText_key "name" (by decide)) p.plain_name memberEnd_comma,
      lineBraces_memberLine 1 (plainText_key "version" (by decide)) p.plain_version memberEnd_comma,
      lineBraces_nestedLine 1 (plainText_key "package" (by decide)),
      lineBraces_memberLine 2 (plainText_key "filename" (by decide)) p.plain_filename
        memberEnd_comma,
      lineBraces_memberLine 2 (plainText_key "content" (by decide)) p.plain_content memberEnd_comma,
      lineBraces_memberLine 2 (plainText_key "version" (by decide)) plainText_one (Or.inl rfl),
      hclose 1 [] (Or.inl rfl)]
  rw [mockObject, List.map_cons, List.map_append, List.map_append, hopen, hcontent,
    List.map_singleton, hclose 0 tail htail]
  cases p.id with
  | none => rfl
  | some id =>
      rw [List.map_singleton,
        lineBraces_numberLine 1 id (plainText_key "id" (by decide)) memberEnd_comma]
      rfl

/-- They are balanced at the last line and not before. -/
theorem mockObject_open (p : MockPackage) {tail : CString} (htail : MemberEnd tail) {k : Nat}
    (hpos : 0 < k) (hk : k < (mockObject p tail).length) :
    (((mockObject p tail).take k).map lineBraces).sum ≠ 0 := by
  have hlength : (mockObject p tail).length = 9 + p.id.toList.length := by
    have hmap := congrArg List.length (mockObject_braces p htail)
    simp only [List.length_map, List.length_cons, List.length_append, List.length_nil] at hmap
    omega
  rw [hlength] at hk
  rw [List.map_take, mockObject_braces p htail]
  cases hid : p.id with
  | none =>
      have hnone : ∀ k < 9, 0 < k →
          ((1 :: [0, 0, 1, 0, 0, 0, -1, -1] : List Int).take k).sum ≠ 0 := by decide
      rw [hid] at hk
      exact hnone k hk hpos
  | some id =>
      have hsome : ∀ k < 10, 0 < k →
          ((1 :: 0 :: [0, 0, 1, 0, 0, 0, -1, -1] : List Int).take k).sum ≠ 0 := by decide
      rw [hid] at hk
      exact hsome k hk hpos

/-- The lines of a package with the key of its file name or of its content. -/
def packageLines (p : MockPackage) (key : CString) : List CString :=
  (if key = ascii "filename" then [memberText key p.filename [charByte ',']] else []) ++
    (if key = ascii "content" then [memberText key p.content [charByte ',']] else [])

/-- The lines of `mock_json_content` on which a key of the package stands. -/
theorem mock_json_content_matches (p : MockPackage) {key : CString} (hkey : PlainText key)
    (hkeys : key ∉ [ascii "id", ascii "name", ascii "version", ascii "package", ascii "1"])
    (hvalues : key ∉ [p.name, p.version, p.filename, p.content]) :
    ((mock_json_content p).map shownLine).filter (hasMatch (quote :: (key ++ [quote]))) =
      packageLines p key := by
  have hopen : quote ∉ ([123] : CString) := by decide
  have hclose : quote ∉ ([125] : CString) := by decide
  simp only [List.mem_cons, List.not_mem_nil, or_false, not_or] at hkeys hvalues
  simp only [mock_json_content, List.map_cons, List.map_nil,
    shownLine_memberLine _ _ _ p.plain_name, shownLine_memberLine _ _ _ p.plain_version,
    shownLine_memberLine _ _ _ p.plain_filename, shownLine_memberLine _ _ _ p.plain_content,
    shownLine_memberLine _ _ _ plainText_one, shownLine_nestedLine, shownLine_markLine]
  simp only [List.filter_cons, List.filter_nil, hasMatch_marks _ hclose,
    hasMatch_keyText hkey (plainText_key "package" (by decide)) hopen,
    hasMatch_memberText hkey (plainText_key "name" (by decide)) p.plain_name memberEnd_comma,
    hasMatch_memberText hkey (plainText_key "version" (by decide)) p.plain_version memberEnd_comma,
    hasMatch_memberText hkey (plainText_key "filename" (by decide)) p.plain_filename
      memberEnd_comma,
    hasMatch_memberText hkey (plainText_key "content" (by decide)) p.plain_content memberEnd_comma,
    hasMatch_memberText hkey (plainText_key "version" (by decide)) plainText_one (Or.inl rfl),
    hkeys, hvalues]
  have hne : ascii "filename" ≠ ascii "content" := by decide
  by_cases hfilename : key = ascii "filename"
  · simp [packageLines, hfilename, hne]
  · by_cases hcontent : key = ascii "content"
    · simp [packageLines, hcontent, hne.symm]
    · simp [packageLines, hfilename, hcontent]

/-- The lines of an object on which a key of the package stands. -/
theorem mockObject_matches (p : MockPackage) {tail key : CString} (htail : MemberEnd tail)
    (hkey : PlainText key)
    (hkeys : key ∉ [ascii "id", ascii "name", ascii "version", ascii "package", ascii "1"])
    (hvalues : key ∉ [p.name, p.version, p.filename, p.content]) :
    ((mockObject p tail).map shownLine).filter (hasMatch (quote :: (key ++ [quote]))) =
      packageLines p key := by
  have hcontent := mock_json_content_matches p hkey hkeys hvalues
  have hopen : quote ∉ ([123] : CString) := by decide
  have hclose : quote ∉ 125 :: tail := by
    rcases htail with rfl | rfl <;> decide
  have hid : key ≠ ascii "id" := fun hid => hkeys (by simp [hid])
  rw [mockObject, List.map_cons, List.map_append, List.map_append, shownLine_markLine,
    List.filter_cons_of_neg (by simp [hasMatch_marks _ hopen]), List.filter_append,
    List.filter_append, hcontent, List.map_singleton, shownLine_markLine,
    List.filter_cons_of_neg (by simp [hasMatch_marks _ hclose]), List.filter_nil, List.append_nil]
  cases p.id with
  | none => rfl
  | some id =>
      have hdigits : quote ∉ decimalNat id ++ [charByte ','] := by
        have hquote := (plainText_decimalNat id).not_mem (b := quote) rfl
        have hcomma : quote ≠ charByte ',' := by decide
        simp [hquote, hcomma]
      rw [List.map_singleton, shownLine_numberLine,
        List.filter_cons_of_neg (by
          simp [hasMatch_keyText hkey (plainText_key "id" (by decide)) hdigits, hid]),
        List.filter_nil, List.nil_append]

/-- The values of an object are none of the keys. -/
theorem MockPackage.not_mem_values (p : MockPackage) {key : CString}
    (hkey : key = ascii "filename" ∨ key = ascii "content") :
    key ∉ [p.name, p.version, p.filename, p.content] := by
  have hvalues : ∀ text ∈ [p.name, p.version, p.filename, p.content],
      text ≠ ascii "filename" ∧ text ≠ ascii "content" := by
    intro text htext
    simp only [List.mem_cons, List.not_mem_nil, or_false] at htext
    rcases htext with rfl | rfl | rfl | rfl
    · exact p.no_key _ (by simp)
    · exact p.no_key _ (by simp)
    · exact p.filename_no_key
    · exact p.no_key _ (by simp)
  intro hmem
  rcases hkey with rfl | rfl
  · exact (hvalues _ hmem).1 rfl
  · exact (hvalues _ hmem).2 rfl

/-! ## The block of an object -/

/-- The file of the package can be created, and the machine has the tools for its type. -/
def MockPackage.Installable (host : Host) (p : MockPackage) : Prop :=
  host.canCreate p.filename = true ∧
    (if p.rpm then host.yum else host.dpkg && host.apt_get) = true

section

variable {host : Host}

/-- What the installer takes as the value of a key from the lines of an object. -/
theorem member_mockObject (hhost : host.Documented) (files : List CString) (p : MockPackage)
    {tail : CString} (htail : MemberEnd tail) {key : String} {value : CString}
    (hkey : key = "filename" ∨ key = "content") (hvalue : PlainText value)
    (hlines : packageLines p (ascii key) = [memberText (ascii key) value [charByte ',']]) :
    member host (quote :: (ascii key ++ [quote]))
      (blockText host files (deliveredLines (mockObject p tail))) = value := by
  have hplain : PlainText (ascii key) := plainText_key key (by rcases hkey with rfl | rfl <;> simp)
  have hother : ascii key ∉
      [ascii "id", ascii "name", ascii "version", ascii "package", ascii "1"] := by
    rcases hkey with rfl | rfl <;> decide
  have hvalues := p.not_mem_values (hkey.imp (congrArg ascii) (congrArg ascii))
  have hmatches := mockObject_matches p htail hplain hother hvalues
  rw [hlines] at hmatches
  rw [blockText_delivered hhost files (mockObject_plain p htail)]
  exact member_of_line hhost (mockObject_plain p htail) hplain hvalue (Or.inr rfl) hmatches

/-- The package of an object can be installed. -/
theorem MockPackage.Installable.installs (hhost : host.Documented) (files written : List CString)
    {p : MockPackage} (h : p.Installable host) :
    package_installation host written (PKG_TYPE host files p.filename) = true := by
  obtain ⟨hplain, hword, hdot⟩ := p.type_spec
  have htype : PKG_TYPE host files p.filename = p.type :=
    PKG_TYPE_of_plain hhost files p.plain_base hplain hdot
  have hinstall := h.2
  rw [htype, package_installation, words_plainWord hhost written hword]
  rcases p.type_cases with ⟨hrpm, htype⟩ | ⟨hrpm, htype⟩
  · have hdeb : (ascii "rpm" == ascii "deb") = false := by decide
    simpa [testEqual, htype, hrpm, hdeb] using hinstall
  · simpa [testEqual, htype, hrpm] using hinstall

/-- The content of a package is one word. -/
theorem MockPackage.plainWord_content (p : MockPackage) : PlainWord p.content := by
  refine p.plain_content.word p.content_ne_nil fun hoption => ?_
  have hbase64 := p.base64
  rw [hoption] at hbase64
  exact absurd hbase64 (by decide)

/-- The lines of one object are a block. -/
theorem packageBlock_mockObject (hhost : host.Documented) (files : List CString)
    {p : MockPackage} (h : p.Installable host) {tail : CString} (htail : MemberEnd tail) :
    PackageBlock host files p.package (deliveredLines (mockObject p tail)) := by
  have hplain := mockObject_plain p htail
  have hfilename := member_mockObject hhost files p htail (Or.inl rfl) p.plain_filename rfl
  have hcontent := member_mockObject hhost files p htail (Or.inr rfl) p.plain_content rfl
  have hwords : contentWords host files
      (blockText host files (deliveredLines (mockObject p tail))) = [p.content] := by
    rw [contentWords]
    refine (congrArg (words host files) hcontent).trans ?_
    exact words_plainWord hhost files p.plainWord_content
  constructor
  · -- the line of the brace shows no square bracket
    have hopen : ∀ word ∈ (markLine 0 [123]).words, PlainWord word :=
      markLine_plain 0 plainWord_open
    refine ⟨_, _, rfl, ?_⟩
    rw [brackets, shown_tokenLine hhost files hopen, occurrences_shownLine hhost _ hopen,
      occurrences_shownLine hhost _ hopen, shownLine_markLine]
    rfl
  · intro k hpos hk
    rw [deliveredLines, List.length_map] at hk
    have hprefix : ∀ line ∈ (mockObject p tail).take k, ∀ word ∈ line.words, PlainWord word :=
      fun line hline => hplain line (List.mem_of_mem_take hline)
    have htake : (deliveredLines (mockObject p tail)).take k =
        deliveredLines ((mockObject p tail).take k) :=
      List.map_take.symm
    rw [htake, blockBraces_delivered hhost files hprefix]
    exact mockObject_open p htail hpos hk
  · rw [blockBraces_delivered hhost files hplain, mockObject_braces p htail]
    cases p.id with
    | none => rfl
    | some id => rfl
  · exact hfilename
  · rw [hwords]
    exact beq_false_of_ne p.content_ne_nil
  · have hword : ∀ word ∈ [p.content], PlainWord word :=
      List.forall_mem_singleton.mpr p.plainWord_content
    rw [hwords, echo_of_plain hword, List.intercalate_singleton]
    rfl
  · exact h.1
  · exact h.installs hhost files _

end

/-! ## Documents -/

/-- The lines of the objects are the lines of each of them. -/
theorem mem_mockObjects {packages : List MockPackage} {line : TokenLine}
    (h : line ∈ mockObjects packages) :
    ∃ p ∈ packages, ∃ tail, MemberEnd tail ∧ line ∈ mockObject p tail := by
  induction packages with
  | nil => cases h
  | cons p packages ih =>
      cases packages with
      | nil => exact ⟨p, List.mem_cons_self, [], Or.inl rfl, h⟩
      | cons q packages =>
          rw [mockObjects, List.mem_append] at h
          rcases h with h | h
          · exact ⟨p, List.mem_cons_self, [charByte ','], Or.inr rfl, h⟩
          · obtain ⟨r, hr, hline⟩ := ih h
            exact ⟨r, List.mem_cons_of_mem p hr, hline⟩

/-- The words of a document are plain. -/
theorem mockLines_plain (packages : List MockPackage) :
    ∀ line ∈ mockLines packages, ∀ word ∈ line.words, PlainWord word := by
  intro line hline
  simp only [mockLines, List.mem_cons, List.mem_append, List.not_mem_nil, or_false] at hline
  rcases hline with rfl | hline | rfl
  · exact markLine_plain 0 (plainWord_bracket (Or.inl rfl))
  · obtain ⟨p, -, tail, htail, hmem⟩ := mem_mockObjects hline
    exact mockObject_plain p htail line hmem
  · exact markLine_plain 0 (plainWord_bracket (Or.inr rfl))

/-- The strings of an object need no escape. -/
theorem mockJson_plain (p : MockPackage) : ∀ token ∈ (mockJson p).tokens, token.plain = true := by
  have hmark : ∀ b, (Token.mark b).plain = true := fun _ => rfl
  have hnumber : ∀ value, (Token.number value).plain = true := fun _ => rfl
  have hkeys : (Token.string "id".toList).plain = true ∧
      (Token.string "name".toList).plain = true ∧ (Token.string "version".toList).plain = true ∧
      (Token.string "package".toList).plain = true ∧
      (Token.string "filename".toList).plain = true ∧
      (Token.string "content".toList).plain = true ∧ (Token.string "1".toList).plain = true := by
    decide
  rw [mockJson, packageMembers]
  cases p.id with
  | none =>
      simp only [Json.tokens, memberTokens, comma, List.nil_append, List.intercalate_cons_cons,
        List.intercalate_singleton, List.forall_mem_cons, List.forall_mem_append,
        List.not_mem_nil, false_imp_iff, implies_true, hmark, hkeys, p.plain_name.plain_string,
        p.plain_version.plain_string, p.plain_filename.plain_string,
        p.plain_content.plain_string, and_self]
  | some id =>
      simp only [Json.tokens, memberTokens, comma, List.singleton_append,
        List.intercalate_cons_cons, List.intercalate_singleton, List.forall_mem_cons,
        List.forall_mem_append, List.not_mem_nil, false_imp_iff, implies_true, hmark, hnumber,
        hkeys, p.plain_name.plain_string, p.plain_version.plain_string,
        p.plain_filename.plain_string, p.plain_content.plain_string, and_self]

/-- The tokens of a document need no escape. -/
theorem mockLines_token_plain (packages : List MockPackage) :
    ∀ line ∈ mockLines packages, ∀ group ∈ line.groups, ∀ token ∈ group, token.plain = true := by
  have hmark : ∀ marks : CString, ∀ group ∈ (markLine 0 marks).groups, ∀ token ∈ group,
      token.plain = true := by
    intro marks
    simp [markLine, Token.plain]
  intro line hline
  simp only [mockLines, List.mem_cons, List.mem_append, List.not_mem_nil, or_false] at hline
  rcases hline with rfl | hline | rfl
  · exact hmark _
  · obtain ⟨p, -, tail, -, hmem⟩ := mem_mockObjects hline
    intro group hgroup token htoken
    have hin : token ∈ (mockObject p tail).flatMap fun line => line.groups.flatten :=
      List.mem_flatMap.mpr ⟨line, hmem, List.mem_flatten.mpr ⟨group, hgroup, htoken⟩⟩
    rw [mockObject_tokens, List.mem_append] at hin
    rcases hin with hin | hin
    · exact mockJson_plain p token hin
    · obtain ⟨b, -, rfl⟩ := List.mem_map.mp hin
      rfl
  · exact hmark _

/-- The document with the objects of some packages. -/
def mockDocument (packages : List MockPackage) : PackagesDocument where
  text := (mockLines packages).flatMap fun line => line.text ++ [newline]
  objects := packages.map mockJson
  packages := packages.map MockPackage.package
  isText := by
    have htokens : ((mockLines packages).flatMap fun line => line.groups.flatten) =
        (Json.array (packages.map mockJson)).tokens := by
      rw [mockLines, List.flatMap_cons, List.flatMap_append, mockObjects_tokens, Json.tokens]
      rfl
    have hlayout := layout_lines (mockLines_token_plain packages)
    rw [htokens] at hlayout
    exact hlayout
  holds := by
    rw [List.forall₂_map_left_iff, List.forall₂_map_right_iff, List.forall₂_same]
    intro p _
    refine ⟨_, "package".toList, packageMembers p, plainString p.filename,
      plainString p.content, rfl, List.mem_append_right _ ?_, List.mem_cons_self,
      List.mem_cons_of_mem _ List.mem_cons_self, p.plain_filename.utf8_plainString.symm,
      p.plain_content.utf8_plainString.symm⟩
    exact List.mem_cons_of_mem _ (List.mem_cons_of_mem _ List.mem_cons_self)

section

variable {host : Host}

/-- The lines of the objects are divided into their blocks. -/
theorem blocks_mockObjects (hhost : host.Documented) (files : List CString)
    {packages : List MockPackage} (h : ∀ p ∈ packages, p.Installable host) {lines : List CString}
    (hlines : ∀ files, Blocks host files lines []) :
    Blocks host files (deliveredLines (mockObjects packages) ++ lines)
      (packages.map MockPackage.package) := by
  induction packages generalizing files with
  | nil => exact hlines files
  | cons p packages ih =>
      have hp := h p List.mem_cons_self
      have hrest := ih (files ++ [p.filename]) fun q hq => h q (List.mem_cons_of_mem p hq)
      cases packages with
      | nil =>
          have hblock := packageBlock_mockObject hhost files hp (Or.inl rfl)
          exact Blocks.package hblock hrest
      | cons q packages =>
          have hblock := packageBlock_mockObject hhost files hp (Or.inr rfl)
          have hblocks := Blocks.package hblock hrest
          rw [mockObjects, deliveredLines, List.map_append, List.append_assoc]
          exact hblocks

/-- What `read` delivers for a document. -/
theorem readLines_mockDocument (packages : List MockPackage) :
    readLines (mockDocument packages).text = deliveredLines (mockLines packages) := by
  have hplain : ∀ line ∈ (mockLines packages).map TokenLine.text, PlainLine line := by
    intro text htext b hb
    obtain ⟨line, hline, rfl⟩ := List.mem_map.mp htext
    rcases List.mem_append.mp hb with hb | hb
    · rw [List.eq_of_mem_replicate hb]
      decide
    · obtain ⟨hprintable, hslash⟩ := shownLine_bytes (mockLines_plain packages line hline) b hb
      refine ⟨?_, hslash, ?_⟩
      · rintro rfl
        exact absurd hprintable (by decide)
      · rintro rfl
        exact absurd hprintable (by decide)
  have hlines := readLines_lines hplain
  rw [List.flatMap_map, List.map_map] at hlines
  exact hlines

/-- Every package of a document in the layout of the mock is installed once, in order, on a
machine that has the tools for the packages. -/
theorem mock_packages_installed (hhost : host.Documented) {packages : List MockPackage}
    (h : ∀ p ∈ packages, p.Installable host) : InstalledOnce host (mockDocument packages) := by
  have hlast : ∀ files, Blocks host files (deliveredLines [markLine 0 [charByte ']']]) [] :=
    fun files => Blocks.outside (brackets_markLine hhost files (Or.inr rfl)) Blocks.done
  have hblocks : Blocks host [] (readLines (mockDocument packages).text)
      (mockDocument packages).packages := by
    rw [readLines_mockDocument, mockLines, deliveredLines, List.map_cons, List.map_append]
    exact Blocks.outside (brackets_markLine hhost [] (Or.inl rfl))
      (blocks_mockObjects hhost [] h hlast)
  exact (installedOnce_iff_blocks rfl).mpr hblocks

end

/-- The probe, as the mock describes it. -/
def mockProbe : MockPackage where
  id := some 3
  name := ascii "ea-probe"
  version := ascii "0.1.0"
  base := ascii "ea-probe_0.1.0_all"
  rpm := false
  content := ascii "Qg=="
  plain_name := List.all_eq_true.mp (by decide)
  plain_version := List.all_eq_true.mp (by decide)
  plain_base := List.all_eq_true.mp (by decide)
  no_key := by decide
  content_ne_nil := by decide
  base64 := by decide

/-- An addon of the probe, in an object without a number. -/
def mockAddon : MockPackage where
  id := none
  name := ascii "ea-addon-log"
  version := ascii "0.1.0"
  base := ascii "ea-addon-log_0.1.0_all"
  rpm := false
  content := ascii "Qw=="
  plain_name := List.all_eq_true.mp (by decide)
  plain_version := List.all_eq_true.mp (by decide)
  plain_base := List.all_eq_true.mp (by decide)
  no_key := by decide
  content_ne_nil := by decide
  base64 := by decide

/-- A probe and its addon. -/
theorem mock_packages_installed_example :
    InstalledOnce exampleHost (mockDocument [mockAddon, mockProbe]) := by
  apply mock_packages_installed exampleHost_documented
  intro p hp
  rcases List.mem_cons.mp hp with rfl | hp
  · exact ⟨rfl, rfl⟩
  · rw [List.mem_singleton.mp hp]
    exact ⟨rfl, rfl⟩

end AlertProbe
