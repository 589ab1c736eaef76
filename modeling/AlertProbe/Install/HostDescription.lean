import AlertProbe.Install.Requests
import AlertProbe.Model.Checks

/-!
# From `/etc/redhat-release` to the API

On a machine without `lsb_release` the name and the version of the distribution are
cut out of `/etc/redhat-release`, written into a JSON text and sent with a length
that is counted on the words of the text.

Main results:

- Theorem `emptyWords_eq`: the blanks that the shell drops of a text.
- Theorems `distribOfLine_text` and `releaseOfLine_text`: what the greedy patterns
  find in a line.
- Theorem `release_file_delivered_iff`: when the API reads the name and the version
  of the file.
-/

namespace AlertProbe

open Foundations

/-! ## Blanks behind blanks -/

/-- The blanks that stand directly behind a blank. -/
def repeatedBlanks : CString → Nat
  | [] => 0
  | b :: text => (if b = blank ∧ text.head? = some blank then 1 else 0) + repeatedBlanks text

/-- A character that is not a blank is not counted. -/
theorem repeatedBlanks_cons {c : UInt8} (hc : c ≠ blank) (text : CString) :
    repeatedBlanks (c :: text) = repeatedBlanks text := by
  simp [repeatedBlanks, hc]

/-- A character that is not a blank divides a text. -/
theorem repeatedBlanks_append_cons {c : UInt8} (hc : c ≠ blank) (front back : CString) :
    repeatedBlanks (front ++ c :: back) = repeatedBlanks front + repeatedBlanks back := by
  induction front with
  | nil => rw [List.nil_append, repeatedBlanks_cons hc, repeatedBlanks, Nat.zero_add]
  | cons b front ih =>
      have hhead : (front ++ c :: back).head? = some blank ↔ front.head? = some blank := by
        cases front <;> simp [hc]
      rw [List.cons_append, repeatedBlanks, repeatedBlanks, ih]
      simp only [hhead]
      omega

/-- Nothing is counted in a word. -/
theorem repeatedBlanks_append {word : CString} (hword : blank ∉ word) (back : CString) :
    repeatedBlanks (word ++ back) = repeatedBlanks back := by
  induction word with
  | nil => rfl
  | cons c word ih =>
      rw [List.cons_append, repeatedBlanks_cons fun hc => hword (by simp [hc]),
        ih fun h => hword (List.mem_cons_of_mem c h)]

/-- A word divides a text. -/
theorem repeatedBlanks_word {word : CString} (hne : word ≠ []) (hword : blank ∉ word)
    (front back : CString) :
    repeatedBlanks (front ++ (word ++ back)) = repeatedBlanks front + repeatedBlanks back := by
  cases word with
  | nil => exact absurd rfl hne
  | cons c word =>
      rw [List.cons_append, repeatedBlanks_append_cons fun hc => hword (by simp [hc]),
        repeatedBlanks_append fun h => hword (List.mem_cons_of_mem c h)]

/-- The first word of a text is empty when a blank comes first, or nothing. -/
theorem first_word_eq_nil_iff {text word : CString} {rest : List CString}
    (h : text.splitOnP (· == blank) = word :: rest) :
    word = [] ↔ (text ++ [blank]).head? = some blank := by
  cases text with
  | nil =>
      rw [List.splitOnP_nil, List.cons.injEq] at h
      simp [← h.1]
  | cons c text =>
      rw [List.splitOnP_cons_eq_if_modifyHead] at h
      by_cases hc : c = blank
      · rw [if_pos (by simpa using hc), List.cons.injEq] at h
        simp [← h.1, hc]
      · rw [if_neg (by simpa using hc)] at h
        cases hsplit : text.splitOnP (· == blank) with
        | nil => exact absurd hsplit (List.splitOnP_ne_nil _ _)
        | cons next words =>
            rw [hsplit, List.modifyHead_cons, List.cons.injEq] at h
            simp [← h.1, hc]

/-- The empty words of a text are the repeated blanks of the text between two blanks. -/
theorem emptyWords_eq (text : CString) :
    emptyWords text = repeatedBlanks (blank :: (text ++ [blank])) := by
  rw [emptyWords, List.splitOn_eq_splitOnP]
  induction text with
  | nil => rfl
  | cons c text ih =>
      rw [List.splitOnP_cons_eq_if_modifyHead]
      by_cases hc : c = blank
      · have hmore : repeatedBlanks (blank :: (c :: text ++ [blank])) =
            1 + repeatedBlanks (blank :: (text ++ [blank])) := by
          rw [hc, List.cons_append, repeatedBlanks, if_pos ⟨rfl, rfl⟩]
        rw [if_pos (by simpa using hc), List.count_cons_self, ih, hmore, Nat.add_comm]
      · have hless : repeatedBlanks (blank :: (c :: text ++ [blank])) =
            repeatedBlanks (text ++ [blank]) := by
          rw [List.cons_append, repeatedBlanks, if_neg (by simp [hc]), Nat.zero_add,
            repeatedBlanks_cons hc]
        rw [if_neg (by simpa using hc), hless]
        cases hsplit : text.splitOnP (· == blank) with
        | nil => exact absurd hsplit (List.splitOnP_ne_nil _ _)
        | cons word rest =>
            -- the first word gets a character, so it is not counted any more
            rw [hsplit, List.count_cons, repeatedBlanks] at ih
            have hfirst := first_word_eq_nil_iff hsplit
            rw [List.modifyHead_cons, List.count_cons_of_ne (List.cons_ne_nil c word)]
            by_cases hword : word = []
            · rw [if_pos (by simpa using hword), if_pos ⟨rfl, hfirst.mp hword⟩] at ih
              omega
            · rw [if_neg (by simpa using hword), if_neg fun h => hword (hfirst.mpr h.2)] at ih
              omega

/-- Of the text that the asset is updated with, the shell drops the repeated blanks of the
values. -/
theorem emptyWords_assetJson (v : Variables) :
    emptyWords v.assetJson =
      repeatedBlanks v.HOST_ARCH + repeatedBlanks v.HOST_DISTRIB +
        repeatedBlanks v.DISTRIB_RELEASE := by
  have hwords : ascii "\x7b\"architecture\":\"" ≠ [] ∧ blank ∉ ascii "\x7b\"architecture\":\"" ∧
      ascii "\",\"distribution\":\"" ≠ [] ∧ blank ∉ ascii "\",\"distribution\":\"" ∧
      ascii "\",\"release\":\"" ≠ [] ∧ blank ∉ ascii "\",\"release\":\"" ∧
      ascii "\"\x7d" ≠ [] ∧ blank ∉ ascii "\"\x7d" := by decide
  obtain ⟨ha, harchitecture, hd, hdistribution, hr, hrelease, he, hend⟩ := hwords
  have htext : blank :: (v.assetJson ++ [blank]) =
      [blank] ++ (ascii "\x7b\"architecture\":\"" ++ (v.HOST_ARCH ++
        (ascii "\",\"distribution\":\"" ++ (v.HOST_DISTRIB ++
          (ascii "\",\"release\":\"" ++ (v.DISTRIB_RELEASE ++
            (ascii "\"\x7d" ++ [blank]))))))) := by
    simp only [Variables.assetJson, List.append_assoc, List.singleton_append]
  have hblank : repeatedBlanks [blank] = 0 := rfl
  rw [emptyWords_eq, htext, repeatedBlanks_word ha harchitecture,
    repeatedBlanks_word hd hdistribution, repeatedBlanks_word hr hrelease,
    repeatedBlanks_word he hend, hblank]
  omega

/-! ## The patterns -/

/-- `sed` on a file of one line, in a command substitution. -/
theorem commandSubstitution_eachLine {edit : CString → CString} {line : CString}
    (hnil : edit [] = []) (hline : newline ∉ line) (hnul : 0 ∉ edit line)
    (hnewline : newline ∉ edit line) :
    commandSubstitution (eachLine newline edit (line ++ [newline])) = edit line := by
  have hlines : line ++ [newline] = unlines newline [line] := by
    simp [unlines]
  have hsplit : (unlines newline [line]).splitOn newline = [line] ++ [[]] :=
    splitOn_unlines (by simpa using hline)
  rw [eachLine, hlines, hsplit]
  simp only [List.cons_append, List.nil_append, List.map_cons, List.map_nil, hnil,
    List.intercalate_cons_cons, List.intercalate_singleton, List.append_nil]
  rw [commandSubstitution_newline, commandSubstitution_eq_self hnul hnewline]

/-- A line of `/etc/redhat-release`: the name of the distribution, the version, and what stands
behind it. -/
structure ReleaseFile where
  distrib : CString
  release : CString
  rest : CString
  distrib_value : ∀ b ∈ distrib, valueByte b = true
  release_first : release.head?.any isDigit = true
  release_bytes : ∀ b ∈ release, versionByte b = true
  rest_first : rest.head?.any versionByte = false
  rest_bytes : ∀ b ∈ rest, printableByte b = true
  /-- The word does not come again behind the version. -/
  rest_release : hasMatch (ascii "release") rest = false

/-- The bytes of the file, before the newline. -/
def ReleaseFile.line (r : ReleaseFile) : CString :=
  r.distrib ++ (ascii " release " ++ (r.release ++ r.rest))

/-- Digits and dots are text. -/
theorem versionByte_spec : ∀ b, versionByte b = true →
    valueByte b = true ∧ b ≠ blank ∧ b ≠ charByte 'r' := by
  decide +kernel

section

variable (r : ReleaseFile)

/-- The version begins with a digit. -/
theorem ReleaseFile.release_cons :
    ∃ d release, r.release = d :: release ∧ isDigit d = true := by
  have hfirst := r.release_first
  cases hrelease : r.release with
  | nil => simp [hrelease] at hfirst
  | cons d release => exact ⟨d, release, rfl, by simpa [hrelease] using hfirst⟩

/-- A pattern that begins with the word does not come behind the version. -/
theorem ReleaseFile.hasMatch_rest (front back : CString) :
    hasMatch (front ++ (ascii "release" ++ back)) r.rest = false := by
  rw [← Bool.not_eq_true, hasMatch_iff]
  intro hinfix
  have hword : ascii "release" <:+: r.rest :=
    ((List.prefix_append _ _).isInfix.trans (List.suffix_append _ _).isInfix).trans hinfix
  rw [← hasMatch_iff, r.rest_release] at hword
  cases hword

/-- The first pattern finds the name. -/
theorem distribOfLine_text : distribOfLine r.line = r.distrib := by
  obtain ⟨d, release, hrelease, hd⟩ := r.release_cons
  have hpattern : ascii " release" = blank :: ascii "release" := rfl
  have hword : ascii " release " = blank :: (ascii "release" ++ [blank]) := rfl
  have hmatch : (ascii " release").isPrefixOf
      (blank :: (ascii "release" ++ (blank :: (r.release ++ r.rest)))) = true := by
    rw [List.isPrefixOf_iff_prefix, hpattern]
    exact List.prefix_append _ _
  have hsecond : hasMatch (ascii " release") (blank :: (r.release ++ r.rest)) = false := by
    have hblank : blank ∉ r.release := fun hmem =>
      (versionByte_spec blank (r.release_bytes blank hmem)).2.1 rfl
    have hnext : (ascii "release").isPrefixOf (r.release ++ r.rest) = false := by
      have hr : (charByte 'r' == d) = false := by
        rw [beq_eq_false_iff_ne]
        rintro rfl
        exact absurd hd (by decide)
      rw [hrelease, List.cons_append]
      change (charByte 'r' == d && _) = false
      rw [hr, Bool.false_and]
    rw [hpattern, hasMatch_cons, List.isPrefixOf_cons_cons, hnext, hasMatch_append hblank]
    simpa using r.hasMatch_rest [blank] []
  have hback : lastSplit (ascii " release").isPrefixOf
      (ascii "release" ++ (blank :: (r.release ++ r.rest))) = none := by
    refine lastSplit_eq_none (fun _ h => h) ?_
    rw [hpattern, hasMatch_append (by decide), ← hpattern, hsecond]
  have hline : r.line =
      r.distrib ++ blank :: (ascii "release" ++ (blank :: (r.release ++ r.rest))) := by
    rw [ReleaseFile.line, hword]
    simp only [List.cons_append, List.append_assoc, List.nil_append]
  rw [distribOfLine, hline, lastSplit_append hmatch hback]

/-- The second pattern finds the version. -/
theorem releaseOfLine_text : releaseOfLine r.line = r.release := by
  obtain ⟨d, release, hrelease, hd⟩ := r.release_cons
  have hpattern : ascii "release " = charByte 'r' :: ascii "elease " := rfl
  have hdrop : (charByte 'r' :: (ascii "elease " ++ (r.release ++ r.rest))).drop 8 =
      r.release ++ r.rest := rfl
  have hmatch : startsRelease (charByte 'r' :: (ascii "elease " ++ (r.release ++ r.rest))) =
      true := by
    rw [startsRelease, hdrop, hrelease, Bool.and_eq_true, List.isPrefixOf_iff_prefix, hpattern]
    exact ⟨List.prefix_append _ _, hd⟩
  have hback : lastSplit startsRelease (ascii "elease " ++ (r.release ++ r.rest)) = none := by
    have hstarts : ∀ rest, startsRelease rest = true → (ascii "release ").isPrefixOf rest = true :=
      fun rest h => (Bool.and_eq_true_iff.mp h).1
    refine lastSplit_eq_none hstarts ?_
    have hfront : charByte 'r' ∉ ascii "elease " ++ r.release := by
      rw [List.mem_append, not_or]
      exact ⟨by decide, fun hmem => (versionByte_spec _ (r.release_bytes _ hmem)).2.2 rfl⟩
    rw [← List.append_assoc, hpattern, hasMatch_append hfront, ← hpattern]
    exact r.hasMatch_rest [] [blank]
  have hline : r.line =
      (r.distrib ++ [blank]) ++ charByte 'r' :: (ascii "elease " ++ (r.release ++ r.rest)) := by
    have hword : ascii " release " = blank :: charByte 'r' :: ascii "elease " := rfl
    rw [ReleaseFile.line, hword]
    simp only [List.cons_append, List.append_assoc, List.nil_append]
  have htake : (r.release ++ r.rest).takeWhile versionByte = r.release := by
    have hrest := r.rest_first
    rw [List.takeWhile_append_of_pos r.release_bytes]
    cases hcons : r.rest with
    | nil => simp
    | cons b rest =>
        rw [hcons] at hrest
        rw [List.takeWhile_cons_of_neg (by simpa using hrest), List.append_nil]
  rw [releaseOfLine, hline, lastSplit_append hmatch hback]
  exact htake

/-- The file has one line. -/
theorem ReleaseFile.line_oneLine : newline ∉ r.line := by
  have hword : newline ∉ ascii " release " := by decide
  simp only [ReleaseFile.line, List.mem_append, not_or]
  refine ⟨?_, hword, ?_, ?_⟩
  · exact fun hmem => absurd (r.distrib_value newline hmem) (by decide)
  · exact fun hmem => absurd (r.release_bytes newline hmem) (by decide)
  · exact fun hmem => absurd (r.rest_bytes newline hmem) (by decide)

/-- What the checks find on a machine with such a file. -/
theorem check_host_redhat {s : Surroundings} {arch : CString} (hlsb : s.lsb_release = none)
    (hdebian : s.debian_version = none) (hfile : s.redhat_release = some (r.line ++ [newline]))
    (harch : check_host_arch s = some arch) (ASSET_ID PROBE_ID : Nat) (API_HOST : CString) :
    check_host s ASSET_ID PROBE_ID API_HOST =
      some ⟨ASSET_ID, PROBE_ID, API_HOST, arch, r.distrib, r.release⟩ := by
  have hdistrib : check_host_distrib s = some r.distrib := by
    simp only [check_host_distrib, hlsb, hfile]
    rw [commandSubstitution_eachLine rfl r.line_oneLine, distribOfLine_text]
    · rw [distribOfLine_text]
      exact fun hmem => absurd (r.distrib_value 0 hmem) (by decide)
    · rw [distribOfLine_text]
      exact fun hmem => absurd (r.distrib_value newline hmem) (by decide)
  have hrelease : check_distrib_release s = r.release := by
    simp only [check_distrib_release, hlsb, hdebian, hfile]
    rw [commandSubstitution_eachLine rfl r.line_oneLine, releaseOfLine_text]
    · rw [releaseOfLine_text]
      exact fun hmem => absurd (r.release_bytes 0 hmem) (by decide)
    · rw [releaseOfLine_text]
      exact fun hmem => absurd (r.release_bytes newline hmem) (by decide)
  simp only [check_host, hdistrib, harch, hrelease]

end

/-! ## What the API reads -/

/-- The description of a machine. -/
def hostObject (arch distrib release : CString) : Json :=
  .object [("architecture".toList, .string (plainString arch)),
    ("distribution".toList, .string (plainString distrib)),
    ("release".toList, .string (plainString release))]

/-- On a machine with a file of this form and without the other programs and files that are asked
first, the checks find the name and the version of the file, and the API reads them exactly when at
most one blank in the name and in the architecture stands directly behind a blank. -/
theorem release_file_delivered_iff {host : Host} (hhost : host.Documented)
    {wc_m : CString → Nat} (hwc : CountsBytes wc_m) (lineEnd : LineEnd)
    (login password : Credential) (hlogin : login.Unaltered) (hpassword : password.Unaltered)
    (r : ReleaseFile) {s : Surroundings} {arch API_HOST : CString} (hlsb : s.lsb_release = none)
    (hdebian : s.debian_version = none) (hfile : s.redhat_release = some (r.line ++ [newline]))
    (harch : check_host_arch s = some arch) (hvalue : ∀ b ∈ arch, valueByte b = true)
    (hname : ∀ b ∈ API_HOST, printableByte b = true ∧ b ≠ blank) (ASSET_ID PROBE_ID : Nat) :
    check_host s ASSET_ID PROBE_ID API_HOST =
        some ⟨ASSET_ID, PROBE_ID, API_HOST, arch, r.distrib, r.release⟩ ∧
      ((∃ v request, check_host s ASSET_ID PROBE_ID API_HOST = some v ∧
        readRequest (updateAsset host wc_m lineEnd v login.text password.text) = some request ∧
        (hostObject arch r.distrib r.release).Text request.body) ↔
          repeatedBlanks arch + repeatedBlanks r.distrib ≤ 1) := by
  have hcheck := check_host_redhat r hlsb hdebian hfile harch ASSET_ID PROBE_ID API_HOST
  refine ⟨hcheck, ?_⟩
  generalize hfound : (⟨ASSET_ID, PROBE_ID, API_HOST, arch, r.distrib, r.release⟩ : Variables) =
    found at hcheck
  have hobject : hostObject arch r.distrib r.release = found.assetObject := by
    rw [← hfound]
    rfl
  have hplain : found.Plain := by
    rw [← hfound]
    constructor
    · exact hname
    · intro b hb
      rcases List.mem_append.mp hb with hb | hb
      · exact (List.mem_append.mp hb).elim (hvalue b) (r.distrib_value b)
      · exact (versionByte_spec b (r.release_bytes b hb)).1
  have hrelease : repeatedBlanks r.release = 0 := by
    have hword : blank ∉ r.release := fun hmem =>
      (versionByte_spec blank (r.release_bytes blank hmem)).2.1 rfl
    have hnil := repeatedBlanks_append hword []
    rwa [List.append_nil] at hnil
  have hblanks : emptyWords found.assetJson = repeatedBlanks arch + repeatedBlanks r.distrib := by
    rw [emptyWords_assetJson, ← hfound]
    exact (congrArg _ hrelease).trans (Nat.add_zero _)
  obtain ⟨n, request, hn, hread, hbody⟩ :=
    updateAsset_read hhost hwc hplain lineEnd login password hlogin hpassword
  simp only [hcheck, Option.some.injEq, exists_and_left, exists_eq_left', hread, hbody, hobject,
    hplain.assetObject_text_take_iff]
  omega

/-- A file with the given name. -/
def exampleReleaseFile (distrib : String)
    (h : (ascii distrib).all valueByte = true) : ReleaseFile where
  distrib := ascii distrib
  release := ascii "5.9"
  rest := ascii " (Final)"
  distrib_value := List.all_eq_true.mp h
  release_first := by decide
  release_bytes := List.all_eq_true.mp (by decide)
  rest_first := by decide
  rest_bytes := by decide +kernel
  rest_release := by decide +kernel

/-- A machine with such a file. -/
def exampleSurroundings (r : ReleaseFile) : Surroundings :=
  ⟨none, some (r.line ++ [newline]), none, none, some (ascii "x86_64\n"), none⟩

/-- Single blanks in the name do no harm; three in a row do. -/
theorem release_file_delivered_example :
    (∃ v request, check_host (exampleSurroundings (exampleReleaseFile "Red Hat Linux"
          (by decide +kernel))) 35 0 (ascii "127.0.0.1") = some v ∧
        readRequest (updateAsset exampleHost List.length .crlf v exampleLogin.text
          exampleLogin.text) = some request ∧
        (hostObject (ascii "x86_64") (ascii "Red Hat Linux") (ascii "5.9")).Text request.body) ∧
      ¬ ∃ v request, check_host (exampleSurroundings (exampleReleaseFile "Red   Hat"
          (by decide +kernel))) 35 0 (ascii "127.0.0.1") = some v ∧
        readRequest (updateAsset exampleHost List.length .crlf v exampleLogin.text
          exampleLogin.text) = some request ∧
        (hostObject (ascii "x86_64") (ascii "Red   Hat") (ascii "5.9")).Text request.body := by
  have hunaltered : exampleLogin.Unaltered := ⟨by decide +kernel, by decide +kernel⟩
  have hname : ∀ b ∈ ascii "127.0.0.1", printableByte b = true ∧ b ≠ blank := by
    decide +kernel
  have harch : ∀ r, check_host_arch (exampleSurroundings r) = some (ascii "x86_64") := by
    have houtput : commandSubstitution (ascii "x86_64\n") = ascii "x86_64" := by decide +kernel
    exact fun _ => congrArg some houtput
  have hdelivered := fun r => release_file_delivered_iff exampleHost_documented (fun _ _ => rfl)
    .crlf exampleLogin exampleLogin hunaltered hunaltered r rfl rfl rfl (harch r)
    (List.all_eq_true.mp (by decide +kernel)) hname 35 0
  constructor
  · exact (hdelivered (exampleReleaseFile "Red Hat Linux" (by decide +kernel))).2.mpr
      (by decide +kernel)
  · intro h
    have hle := (hdelivered (exampleReleaseFile "Red   Hat" (by decide +kernel))).2.mp h
    exact absurd hle (by decide +kernel)

end AlertProbe
