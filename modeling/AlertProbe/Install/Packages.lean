import AlertProbe.Model.Install
import AlertProbe.Foundations.Json
import AlertProbe.Foundations.PercentEncoding

/-!
# The package loop

The loop has no JSON parser: it skips lines with a square bracket, counts the
braces of the other lines and installs a package whenever the count comes back to
zero.  So it divides the lines that it is shown into lines outside of the objects
and blocks of lines, one for each package that it installs.

Main results:

- Theorem `foldlM_block`: the loop collects the lines of a block and installs what
  they show.
- Theorem `Blocks.run`: on lines that are divided into blocks the loop installs the
  packages of the blocks.
- Theorem `blocks_of_run`: lines on which the loop installs some packages are
  divided into blocks of these packages.
- Theorem `installedOnce_iff_blocks`: all packages of a document are installed once
  exactly when the lines are divided into their blocks.
-/

namespace AlertProbe

open Foundations

/-! ## Documents -/

/-- A base64 text: groups of four characters, the last one with up to two equals signs. -/
def isBase64 (text : CString) : Bool :=
  let body := text.rdropWhile (· == charByte '=')
  text.length % 4 == 0 && decide (text.length ≤ body.length + 2) &&
    body.all fun b => alphanumeric b || b == charByte '+' || b == charByte '/'

/-- A package as the API delivers it. -/
structure Package where
  filename : CString
  content : CString
  base64 : isBase64 content = true

/-- The bytes of a string. -/
def utf8 (chars : List Char) : CString :=
  chars.flatMap String.utf8EncodeChar

/-- The value is an object that holds a nested object with the package's two strings. -/
def HoldsPackage (value : Json) (package : Package) : Prop :=
  ∃ members key inner filename content, value = .object members ∧
    (key, Json.object inner) ∈ members ∧
    ("filename".toList, Json.string filename) ∈ inner ∧
    ("content".toList, Json.string content) ∈ inner ∧
    package.filename = utf8 filename ∧ package.content = utf8 content

/-- A text of a JSON array of package objects. -/
structure PackagesDocument where
  text : CString
  objects : List Json
  packages : List Package
  isText : (Json.array objects).Text text
  holds : List.Forall₂ HoldsPackage objects packages

section

variable (host : Host)

/-- What `base64 -d` makes of the content as a line. -/
def Package.decoded (package : Package) : CString :=
  host.base64 (package.content ++ [newline])

/-- The call that installs a package. -/
def Package.installation (package : Package) : Installation where
  PKG := package.filename
  file := some (package.decoded host)

/-- The loop ends with balanced braces and has installed each package once, in order. -/
def InstalledOnce (document : PackagesDocument) : Prop :=
  ∃ s, packageLoop host document.text = .ok s ∧ s.count = 0 ∧
    s.installations = document.packages.map (Package.installation host)

/-! ## Blocks -/

/-- Braces opened less braces closed by some lines. -/
def blockBraces (files : List CString) (block : List CString) : Int :=
  (block.map (braces host files)).sum

/-- The file `json_package` behind some lines. -/
def blockText (files : List CString) (block : List CString) : CString :=
  newline :: block.flatMap (shown host files)

/-- The lines of one package: the first one shows no square bracket, the braces are balanced at
the last line and not before, and the lines show the package, which can be installed. -/
structure PackageBlock (files : List CString) (package : Package) (block : List CString) :
    Prop where
  starts : ∃ line rest, block = line :: rest ∧ brackets host files line = 0
  opened : ∀ k, 0 < k → k < block.length → blockBraces host files (block.take k) ≠ 0
  closed : blockBraces host files block = 0
  filename :
    member host (ascii "\"filename\"") (blockText host files block) = package.filename
  content_shown : testEmpty host (contentWords host files (blockText host files block)) = false
  content :
    host.base64 (echo (contentWords host files (blockText host files block))) =
      package.decoded host
  created : host.canCreate package.filename = true
  installs : package_installation host (files ++ [package.filename])
    (PKG_TYPE host files package.filename) = true

/-- The lines are divided into lines with a square bracket and one block for each package. -/
inductive Blocks : List CString → List CString → List Package → Prop where
  | done {files : List CString} : Blocks files [] []
  | outside {files : List CString} {line : CString} {lines : List CString}
      {packages : List Package} (hline : brackets host files line ≠ 0)
      (hrest : Blocks files lines packages) : Blocks files (line :: lines) packages
  | package {files block lines : List CString} {package : Package} {packages : List Package}
      (hblock : PackageBlock host files package block)
      (hrest : Blocks (files ++ [package.filename]) lines packages) :
      Blocks files (block ++ lines) (package :: packages)

end

/-! ## Single lines -/

section

variable {host : Host}

/-- Outside of the objects a line with a square bracket is skipped. -/
theorem packageStep_outside {installations : List Installation} {line : CString}
    (hline : brackets host (writtenFiles installations) line ≠ 0) :
    packageStep host (startLoop installations) line = .ok (startLoop installations) := by
  rw [packageStep]
  exact if_pos ⟨rfl, hline⟩

/-- When all lines have a square bracket, nothing is installed and the loop comes to its end,
where the probe is reported installed. -/
theorem foldlM_outside {installations : List Installation} {lines : List CString}
    (h : ∀ line ∈ lines, brackets host (writtenFiles installations) line ≠ 0) :
    lines.foldlM (packageStep host) (startLoop installations) =
      .ok (startLoop installations) := by
  induction lines with
  | nil => rfl
  | cons line lines ih =>
      rw [List.foldlM_cons, packageStep_outside (h line List.mem_cons_self)]
      exact ih fun l hl => h l (List.mem_cons_of_mem line hl)

/-- What a line that is not skipped does. -/
theorem packageStep_inside {s : LoopState} {line : CString}
    (hin : s.count ≠ 0 ∨ brackets host (writtenFiles s.installations) line = 0) :
    packageStep host s line =
      let json_package := s.json_package ++ shown host (writtenFiles s.installations) line
      let count := s.count + braces host (writtenFiles s.installations) line
      if count = 0 then installPackage host { s with json_package, count }
      else .ok { s with json_package, count } := by
  have hskip : ¬ (s.count = 0 ∧ brackets host (writtenFiles s.installations) line ≠ 0) := by
    rintro ⟨hcount, hline⟩
    rcases hin with hin | hin
    · exact hin hcount
    · exact hline hin
  rw [packageStep, if_neg hskip]

/-- A line that is not skipped and does not balance the braces is collected. -/
theorem packageStep_collect {s : LoopState} {line : CString}
    (hin : s.count ≠ 0 ∨ brackets host (writtenFiles s.installations) line = 0)
    (hopen : s.count + braces host (writtenFiles s.installations) line ≠ 0) :
    packageStep host s line =
      .ok ⟨s.json_package ++ shown host (writtenFiles s.installations) line,
        s.count + braces host (writtenFiles s.installations) line, s.installations⟩ := by
  rw [packageStep_inside hin]
  exact if_neg hopen

/-- A line that balances the braces installs what has been collected. -/
theorem packageStep_close {s : LoopState} {line : CString}
    (hin : s.count ≠ 0 ∨ brackets host (writtenFiles s.installations) line = 0)
    (hclose : s.count + braces host (writtenFiles s.installations) line = 0) :
    packageStep host s line =
      installPackage host
        ⟨s.json_package ++ shown host (writtenFiles s.installations) line, 0,
          s.installations⟩ := by
  rw [packageStep_inside hin]
  simp only [hclose, if_true]

/-- An installation that goes through. -/
theorem installPackage_eq_ok {text : CString} {installations : List Installation}
    {s : LoopState} :
    installPackage host ⟨text, 0, installations⟩ = .ok s ↔
      testEmpty host (contentWords host (writtenFiles installations) text) = false ∧
        package_installation host
          (writtenFiles (installations ++ [collected host (writtenFiles installations) text]))
          (PKG_TYPE host (writtenFiles installations)
            (collected host (writtenFiles installations) text).PKG) = true ∧
        s = startLoop (installations ++ [collected host (writtenFiles installations) text]) := by
  simp only [installPackage]
  by_cases hempty : testEmpty host (contentWords host (writtenFiles installations) text) = true
  · rw [if_pos hempty]
    simp [hempty]
  · rw [if_neg hempty]
    rw [Bool.not_eq_true] at hempty
    by_cases hinstall : package_installation host
        (writtenFiles (installations ++ [collected host (writtenFiles installations) text]))
        (PKG_TYPE host (writtenFiles installations)
          (collected host (writtenFiles installations) text).PKG) = true
    · rw [if_pos hinstall, Except.ok.injEq]
      exact ⟨fun h => ⟨hempty, hinstall, h.symm⟩, fun h => h.2.2.symm⟩
    · rw [if_neg hinstall]
      simp [hinstall]

/-! ## Blocks of lines -/

/-- Lines that never balance the braces are all collected. -/
theorem foldlM_collect (s : LoopState) (block : List CString)
    (hin : s.count ≠ 0 ∨
      ∀ line ∈ block.head?, brackets host (writtenFiles s.installations) line = 0)
    (hopen : ∀ k, 0 < k → k ≤ block.length →
      s.count + blockBraces host (writtenFiles s.installations) (block.take k) ≠ 0) :
    block.foldlM (packageStep host) s =
      .ok ⟨s.json_package ++ block.flatMap (shown host (writtenFiles s.installations)),
        s.count + blockBraces host (writtenFiles s.installations) block, s.installations⟩ := by
  induction block generalizing s with
  | nil => simp [blockBraces, pure, Except.pure]
  | cons line block ih =>
      have hfirst := hopen 1 Nat.one_pos (by simp)
      simp only [blockBraces, List.take_succ_cons, List.take_zero, List.map_cons, List.map_nil,
        List.sum_cons, List.sum_nil, Int.add_zero] at hfirst
      have hstep := packageStep_collect (hin.imp_right fun h => h line rfl) hfirst
      rw [List.foldlM_cons, hstep]
      change block.foldlM (packageStep host) _ = _
      rw [ih _ (Or.inl hfirst) ?_]
      · simp only [List.flatMap_cons, blockBraces, List.map_cons, List.sum_cons,
          List.append_assoc, Int.add_assoc]
      · intro k hk hlength
        have hnext := hopen (k + 1) (Nat.succ_pos k) (by simpa using hlength)
        simpa only [blockBraces, List.take_succ_cons, List.map_cons, List.sum_cons,
          Int.add_assoc] using hnext

/-- A block of lines is collected and installed. -/
theorem foldlM_block {installations : List Installation} {block : List CString}
    (hstarts : ∃ line rest, block = line :: rest ∧
      brackets host (writtenFiles installations) line = 0)
    (hopened : ∀ k, 0 < k → k < block.length →
      blockBraces host (writtenFiles installations) (block.take k) ≠ 0)
    (hclosed : blockBraces host (writtenFiles installations) block = 0) :
    block.foldlM (packageStep host) (startLoop installations) =
      installPackage host
        ⟨blockText host (writtenFiles installations) block, 0, installations⟩ := by
  obtain ⟨line, rest, rfl, hline⟩ := hstarts
  obtain ⟨front, last, hblock⟩ :=
    (List.eq_nil_or_concat' (line :: rest)).resolve_left (List.cons_ne_nil line rest)
  rw [hblock] at hopened hclosed ⊢
  have hhead : ∀ first ∈ (front ++ [last]).head?,
      brackets host (writtenFiles installations) first = 0 := by
    intro first hfirst
    rw [← hblock, List.head?_cons, Option.mem_some_iff] at hfirst
    rw [← hfirst]
    exact hline
  -- the lines in front of the last one are collected
  have hcollect := foldlM_collect (startLoop installations) front
    (Or.inr fun first hfirst => hhead first (by
      cases front with
      | nil => cases hfirst
      | cons _ _ => exact hfirst))
    (by
      intro k hk hlength
      have hnot := hopened k hk (by rw [List.length_append]; exact Nat.lt_add_one_of_le hlength)
      rw [List.take_append_of_le_length hlength] at hnot
      simpa [startLoop] using hnot)
  have hbraces : blockBraces host (writtenFiles installations) (front ++ [last]) =
      blockBraces host (writtenFiles installations) front +
        braces host (writtenFiles installations) last := by
    simp [blockBraces]
  have hlast : (startLoop installations).count +
        blockBraces host (writtenFiles installations) front ≠ 0 ∨
      brackets host (writtenFiles installations) last = 0 := by
    cases front with
    | nil => exact Or.inr (hhead last rfl)
    | cons first front =>
        left
        have hnot := hopened (first :: front).length (Nat.succ_pos _) (by simp)
        rw [List.take_left] at hnot
        simpa [startLoop] using hnot
  have hclose : (startLoop installations).count +
      blockBraces host (writtenFiles installations) front +
        braces host (writtenFiles installations) last = 0 := by
    rw [← hclosed, hbraces]
    simp [startLoop]
  have hsingle : ∀ s, [last].foldlM (packageStep host) s = packageStep host s last := by
    intro s
    simp
  rw [List.foldlM_append, hcollect]
  change [last].foldlM (packageStep host) _ = _
  rw [hsingle]
  have hstep := packageStep_close
    (s := ⟨newline :: front.flatMap (shown host (writtenFiles installations)),
      (startLoop installations).count + blockBraces host (writtenFiles installations) front,
      installations⟩) hlast hclose
  refine hstep.trans ?_
  simp [blockText]

/-- What a block collects is its package. -/
theorem PackageBlock.collected_eq {files : List CString} {package : Package}
    {block : List CString} (h : PackageBlock host files package block) :
    collected host files (blockText host files block) = package.installation host := by
  simp only [collected, Package.installation, h.filename, h.created, if_true, h.content]

/-- The file of an installed package is written. -/
theorem writtenFiles_concat (installations : List Installation) (package : Package) :
    writtenFiles (installations ++ [package.installation host]) =
      writtenFiles installations ++ [package.filename] := by
  simp [writtenFiles, Package.installation]

/-! ## Runs of the loop -/

/-- On lines that are divided into blocks the loop installs the packages of the blocks. -/
theorem Blocks.run {files lines : List CString} {packages : List Package}
    (h : Blocks host files lines packages) {installations : List Installation}
    (hfiles : writtenFiles installations = files) :
    lines.foldlM (packageStep host) (startLoop installations) =
      .ok (startLoop (installations ++ packages.map (Package.installation host))) := by
  induction h generalizing installations with
  | done => simp [pure, Except.pure]
  | outside hline _ ih =>
      subst hfiles
      rw [List.foldlM_cons, packageStep_outside hline]
      exact ih rfl
  | @package files block lines package packages hblock _ ih =>
      subst hfiles
      have hinstall : installPackage host
          ⟨blockText host (writtenFiles installations) block, 0, installations⟩ =
            .ok (startLoop (installations ++ [package.installation host])) := by
        rw [installPackage_eq_ok, hblock.collected_eq, writtenFiles_concat]
        exact ⟨hblock.content_shown, hblock.installs, rfl⟩
      rw [List.foldlM_append, foldlM_block hblock.starts hblock.opened hblock.closed, hinstall]
      change lines.foldlM (packageStep host) _ = _
      rw [ih (writtenFiles_concat installations package), List.map_cons, List.append_assoc,
        List.singleton_append]

/-- The loop only adds installations. -/
theorem packageStep_grows {s t : LoopState} {line : CString}
    (h : packageStep host s line = .ok t) : s.installations <+: t.installations := by
  by_cases hskip : s.count = 0 ∧ brackets host (writtenFiles s.installations) line ≠ 0
  · rw [packageStep, if_pos hskip, Except.ok.injEq] at h
    rw [h]
  · have hin : s.count ≠ 0 ∨ brackets host (writtenFiles s.installations) line = 0 := by
      by_contra hnot
      rw [not_or, not_not] at hnot
      exact hskip hnot
    by_cases hclose : s.count + braces host (writtenFiles s.installations) line = 0
    · rw [packageStep_close hin hclose] at h
      rw [(installPackage_eq_ok.mp h).2.2]
      exact List.prefix_append _ _
    · rw [packageStep_collect hin hclose, Except.ok.injEq] at h
      rw [← h]

/-- So does a run of it. -/
theorem foldlM_grows {s t : LoopState} {lines : List CString}
    (h : lines.foldlM (packageStep host) s = .ok t) : s.installations <+: t.installations := by
  induction lines generalizing s with
  | nil =>
      cases h
      exact List.prefix_rfl
  | cons line lines ih =>
      rw [List.foldlM_cons] at h
      cases hstep : packageStep host s line with
      | error e =>
          rw [hstep] at h
          cases h
      | ok u =>
          rw [hstep] at h
          exact (packageStep_grows hstep).trans (ih h)

/-- Lines whose braces are balanced somewhere begin with a block that ends where they are
balanced for the first time. -/
theorem exists_first_balance {files lines : List CString}
    (h : ∃ k, 0 < k ∧ k ≤ lines.length ∧ blockBraces host files (lines.take k) = 0) :
    ∃ k, 0 < k ∧ k ≤ lines.length ∧ blockBraces host files (lines.take k) = 0 ∧
      ∀ j, 0 < j → j < k → blockBraces host files (lines.take j) ≠ 0 := by
  classical
  obtain ⟨hpos, hlength, hbalance⟩ := Nat.find_spec h
  refine ⟨Nat.find h, hpos, hlength, hbalance, ?_⟩
  intro j hj hlt hbefore
  exact Nat.find_min h hlt ⟨hj, by omega, hbefore⟩

/-- A block whose collected installation is that of a package is a block of the package. -/
theorem packageBlock_of_collected {installations : List Installation} {package : Package}
    {block : List CString} {u : LoopState}
    (hstarts : ∃ line rest, block = line :: rest ∧
      brackets host (writtenFiles installations) line = 0)
    (hopened : ∀ k, 0 < k → k < block.length →
      blockBraces host (writtenFiles installations) (block.take k) ≠ 0)
    (hclosed : blockBraces host (writtenFiles installations) block = 0)
    (hcollected :
      collected host (writtenFiles installations)
        (blockText host (writtenFiles installations) block) = package.installation host)
    (hinstall : installPackage host
      ⟨blockText host (writtenFiles installations) block, 0, installations⟩ = .ok u) :
    PackageBlock host (writtenFiles installations) package block := by
  obtain ⟨hshown, hinstalls, -⟩ := installPackage_eq_ok.mp hinstall
  rw [hcollected, writtenFiles_concat] at hinstalls
  simp only [collected, Package.installation, Installation.mk.injEq] at hcollected
  obtain ⟨hfilename, hfile⟩ := hcollected
  rw [hfilename] at hfile
  by_cases hcreated : host.canCreate package.filename = true
  · rw [if_pos hcreated, Option.some.injEq] at hfile
    exact ⟨hstarts, hopened, hclosed, hfilename, hshown, hfile, hcreated, hinstalls⟩
  · rw [if_neg hcreated] at hfile
    cases hfile

/-- A run that installs some packages and begins with the lines of a block has the first package
in the block and goes on with the others. -/
theorem first_block_of_run {block lines : List CString} {installations : List Installation}
    {packages : List Package} {s : LoopState}
    (hstarts : ∃ line rest, block = line :: rest ∧
      brackets host (writtenFiles installations) line = 0)
    (hopened : ∀ k, 0 < k → k < block.length →
      blockBraces host (writtenFiles installations) (block.take k) ≠ 0)
    (hclosed : blockBraces host (writtenFiles installations) block = 0)
    (h : (block ++ lines).foldlM (packageStep host) (startLoop installations) = .ok s)
    (hs : s.installations = installations ++ packages.map (Package.installation host)) :
    ∃ package others, packages = package :: others ∧
      PackageBlock host (writtenFiles installations) package block ∧
      lines.foldlM (packageStep host) (startLoop (installations ++ [package.installation host])) =
        .ok s ∧
      s.installations = (installations ++ [package.installation host]) ++
        others.map (Package.installation host) := by
  rw [List.foldlM_append, foldlM_block hstarts hopened hclosed] at h
  cases hinstall : installPackage host
      ⟨blockText host (writtenFiles installations) block, 0, installations⟩ with
  | error e =>
      rw [hinstall] at h
      cases h
  | ok u =>
      rw [hinstall] at h
      obtain ⟨-, -, rfl⟩ := installPackage_eq_ok.mp hinstall
      -- the installation of the block is the first of the expected ones
      have hprefix := foldlM_grows h
      rw [hs] at hprefix
      have hfirst := (List.prefix_append_right_inj installations).mp hprefix
      cases packages with
      | nil => simp at hfirst
      | cons package packages =>
          rw [List.map_cons, List.cons_prefix_cons] at hfirst
          refine ⟨package, packages, rfl,
            packageBlock_of_collected hstarts hopened hclosed hfirst.1 hinstall, ?_, ?_⟩
          · rw [hfirst.1] at h
            exact h
          · rw [hs, List.map_cons, List.append_assoc, List.singleton_append]

/-- Lines whose braces are balanced nowhere leave the braces open at the end. -/
theorem count_ne_zero_of_unbalanced {line : CString} {rest : List CString}
    {installations : List Installation} {s : LoopState}
    (hline : brackets host (writtenFiles installations) line = 0)
    (hbalance : ¬ ∃ k, 0 < k ∧ k ≤ (line :: rest).length ∧
      blockBraces host (writtenFiles installations) ((line :: rest).take k) = 0)
    (h : (line :: rest).foldlM (packageStep host) (startLoop installations) = .ok s) :
    s.count ≠ 0 := by
  have hopen : ∀ k, 0 < k → k ≤ (line :: rest).length →
      (startLoop installations).count +
        blockBraces host (writtenFiles installations) ((line :: rest).take k) ≠ 0 := by
    intro k hk hle hzero
    exact hbalance ⟨k, hk, hle, by simpa [startLoop] using hzero⟩
  have hcollect := foldlM_collect (startLoop installations) (line :: rest)
    (Or.inr fun first hfirst => by cases hfirst; exact hline) hopen
  rw [hcollect, Except.ok.injEq] at h
  have hend := hopen (line :: rest).length (by simp) le_rfl
  rw [List.take_length] at hend
  rw [← h]
  exact hend

/-- Lines on which the loop installs some packages and balances the braces are divided into
blocks of these packages. -/
theorem blocks_of_run {lines : List CString} {installations : List Installation}
    {packages : List Package} {s : LoopState}
    (h : lines.foldlM (packageStep host) (startLoop installations) = .ok s)
    (hcount : s.count = 0)
    (hs : s.installations = installations ++ packages.map (Package.installation host)) :
    Blocks host (writtenFiles installations) lines packages := by
  -- the induction goes from block to block, so it is on the number of lines
  induction hlength : lines.length using Nat.strong_induction_on
    generalizing lines installations packages with
  | _ n ih =>
      cases lines with
      | nil =>
          cases h
          have hnone : packages.map (Package.installation host) = [] :=
            List.self_eq_append_right.mp hs
          rw [List.map_eq_nil_iff] at hnone
          subst hnone
          exact Blocks.done
      | cons line rest =>
          by_cases hline : brackets host (writtenFiles installations) line ≠ 0
          · rw [List.foldlM_cons, packageStep_outside hline] at h
            exact Blocks.outside hline (ih rest.length (by simp [← hlength]) h hs rfl)
          rw [not_not] at hline
          by_cases hbalance : ∃ k, 0 < k ∧ k ≤ (line :: rest).length ∧
              blockBraces host (writtenFiles installations) ((line :: rest).take k) = 0
          · obtain ⟨k, hk, hle, hclosed, hopened⟩ := exists_first_balance hbalance
            have hstarts : ∃ first others, (line :: rest).take k = first :: others ∧
                brackets host (writtenFiles installations) first = 0 := by
              cases k with
              | zero => cases hk
              | succ k => exact ⟨line, rest.take k, List.take_succ_cons, hline⟩
            have hbefore : ∀ j, 0 < j → j < ((line :: rest).take k).length →
                blockBraces host (writtenFiles installations)
                  (((line :: rest).take k).take j) ≠ 0 := by
              intro j hj hlt
              rw [List.length_take_of_le hle] at hlt
              rw [List.take_take, Nat.min_eq_left hlt.le]
              exact hopened j hj hlt
            have hsplit := List.take_append_drop k (line :: rest)
            rw [← hsplit] at h
            obtain ⟨package, others, rfl, hblock, hrun, hothers⟩ :=
              first_block_of_run hstarts hbefore hclosed h hs
            have hshort : ((line :: rest).drop k).length < n := by
              rw [List.length_drop, ← hlength]
              omega
            have hrest := ih _ hshort hrun hothers rfl
            rw [writtenFiles_concat] at hrest
            have hblocks := Blocks.package hblock hrest
            rw [hsplit] at hblocks
            exact hblocks
          · exact absurd hcount (count_ne_zero_of_unbalanced hline hbalance h)

/-- On a document whose lines come to the loop as some lines, every package is installed once, in
order, and the loop ends with balanced braces, exactly when these lines are divided into blocks. -/
theorem installedOnce_iff_blocks {document : PackagesDocument} {lines : List CString}
    (hlines : packageLoop host document.text =
      lines.foldlM (packageStep host) (startLoop [])) :
    InstalledOnce host document ↔ Blocks host [] lines document.packages := by
  rw [InstalledOnce, hlines]
  constructor
  · rintro ⟨s, hrun, hcount, hs⟩
    exact blocks_of_run hrun hcount hs
  · intro h
    exact ⟨_, h.run rfl, rfl, rfl⟩

end

/-! ## A machine -/

/-- A Debian machine without files that patterns could stand for. -/
def exampleHost : Host where
  glob _ field := [field]
  binary text := text.contains 0
  binaryMatches name := [ascii "Binary file " ++ name ++ ascii " matches"]
  test _ := false
  base64 text := if text = ascii "QQ==\n" then ascii "A" else []
  canCreate _ := true
  dpkg := true
  apt_get := true
  yum := false

end AlertProbe
