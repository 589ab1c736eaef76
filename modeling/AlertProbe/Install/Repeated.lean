import AlertProbe.Configuration.Installed
import AlertProbe.Install.Responses
import AlertProbe.Model.Installer

/-!
# Repeated runs of the installer

A run that ends with an error leaves what it has done, for the installer undoes
nothing.  It can be run again all the same: `sed` replaces whatever an earlier run
has written into `probe.conf`, wherever the keys stand, so in the end the file is one
that a package brought, with the settings of the last run.  A daemon that was running
does not read it, for the init scripts start none beside it.

Main results:

- Theorem `replaceBehind_comm`: the two edits of a line can change places.
- Theorem `configure_configure`: of two edits of a text the second one counts.
- Theorem `configured_of_reachable`: what any number of runs leave of `probe.conf`.
- Theorem `last_run_wins`: a run that comes to its end, behind any other runs.
-/

namespace AlertProbe

open Foundations

/-! ## Two edits of a line -/

/-- Behind the first byte of another pattern a line begins as before. -/
theorem isPrefixOf_replaceBehind {pattern front value line : CString} {c : UInt8}
    (h : c ∉ front) :
    front.isPrefixOf (replaceBehind (c :: pattern) value line) = front.isPrefixOf line := by
  induction line generalizing front with
  | nil => rfl
  | cons b line ih =>
      cases front with
      | nil => rfl
      | cons d front =>
          have hd : (d == c) = false := beq_false_of_ne fun heq => h (by simp [heq])
          have hfront : c ∉ front := fun hmem => h (List.mem_cons_of_mem d hmem)
          rw [replaceBehind]
          split
          · rename_i hmatch
            rw [List.isPrefixOf_cons_cons, Bool.and_eq_true, beq_iff_eq] at hmatch
            rw [List.cons_append, List.isPrefixOf_cons_cons, List.isPrefixOf_cons_cons,
              ← hmatch.1, hd]
            rfl
          · rw [List.isPrefixOf_cons_cons, List.isPrefixOf_cons_cons, ih hfront]

/-- Of two replacements behind the same pattern the second one counts. -/
theorem replaceBehind_replaceBehind {pattern : CString} {c : UInt8} (h : c ∉ pattern)
    (value value' line : CString) :
    replaceBehind (c :: pattern) value' (replaceBehind (c :: pattern) value line) =
      replaceBehind (c :: pattern) value' line := by
  induction line with
  | nil => rfl
  | cons b line ih =>
      rw [replaceBehind]
      by_cases hmatch : (c :: pattern).isPrefixOf (b :: line) = true
      · rw [if_pos hmatch, replaceBehind_match, replaceBehind, if_pos hmatch]
      · have hfirst : (c :: pattern).isPrefixOf
            (b :: replaceBehind (c :: pattern) value line) =
              (c :: pattern).isPrefixOf (b :: line) := by
          rw [List.isPrefixOf_cons_cons, List.isPrefixOf_cons_cons, isPrefixOf_replaceBehind h]
        rw [if_neg hmatch, replaceBehind, hfirst, if_neg hmatch, ih, replaceBehind, if_neg hmatch]

/-- Where a line begins with the pattern, everything behind it is replaced. -/
theorem replaceBehind_of_isPrefixOf {pattern value line : CString} {c : UInt8}
    (h : (c :: pattern).isPrefixOf line = true) :
    replaceBehind (c :: pattern) value line = c :: pattern ++ value := by
  cases line with
  | nil => cases h
  | cons b line => rw [replaceBehind, if_pos h]

/-- Replacements behind two patterns can change places, when neither has the first byte of the
other and neither is in what the other one leaves. -/
theorem replaceBehind_comm {p q v w : CString} {c d : UInt8} (hc : c ∉ d :: q) (hd : d ∉ c :: p)
    (hp : hasMatch (c :: p) (d :: q ++ w) = false) (hq : hasMatch (d :: q) (c :: p ++ v) = false)
    (line : CString) :
    replaceBehind (c :: p) v (replaceBehind (d :: q) w line) =
      replaceBehind (d :: q) w (replaceBehind (c :: p) v line) := by
  induction line with
  | nil => rfl
  | cons b line ih =>
      have hfirst := @isPrefixOf_replaceBehind q (c :: p) w (b :: line) d hd
      have hsecond := @isPrefixOf_replaceBehind p (d :: q) v (b :: line) c hc
      by_cases hmatch : (c :: p).isPrefixOf (b :: line) = true
      · rw [replaceBehind_of_isPrefixOf (hfirst.trans hmatch), replaceBehind_of_isPrefixOf hmatch,
          replaceBehind_eq_self hq]
      · by_cases hother : (d :: q).isPrefixOf (b :: line) = true
        · rw [replaceBehind_of_isPrefixOf hother, replaceBehind_of_isPrefixOf (hsecond.trans hother),
            replaceBehind_eq_self hp]
        · -- the line begins with neither pattern, before and behind both edits
          have hleft : replaceBehind (d :: q) w (b :: line) = b :: replaceBehind (d :: q) w line :=
            if_neg hother
          have hright : replaceBehind (c :: p) v (b :: line) = b :: replaceBehind (c :: p) v line :=
            if_neg hmatch
          rw [hleft] at hfirst ⊢
          rw [hright] at hsecond ⊢
          rw [replaceBehind, hfirst, if_neg hmatch, ih, replaceBehind, hsecond, if_neg hother]

/-- Of two edits of a line the second one counts. -/
theorem edit_edit (s s' : Settings) (line : CString) : s'.edit (s.edit line) = s'.edit line := by
  have hpattern : ascii "probe_id=" = charByte 'p' :: ascii "robe_id=" := rfl
  have htoken : ascii "token=" = charByte 't' :: ascii "oken=" := rfl
  have hid : hasMatch (ascii "probe_id=") (ascii "token=" ++ s.TOKEN) = false := by
    rw [← Bool.not_eq_true, hasMatch_iff]
    intro hinfix
    have hmem : charByte '_' ∈ ascii "token=" ++ s.TOKEN := hinfix.subset (by decide)
    rcases List.mem_append.mp hmem with hmem | hmem
    · exact absurd hmem (by decide)
    · exact absurd (s.token_plain _ hmem) (by decide)
  have hno : hasMatch (ascii "token=") (ascii "probe_id=" ++ decimalNat s'.PROBE_ID) = false := by
    rw [← Bool.not_eq_true, hasMatch_iff]
    intro hinfix
    have hmem : charByte 'k' ∈ ascii "probe_id=" ++ decimalNat s'.PROBE_ID :=
      hinfix.subset (by decide)
    rcases List.mem_append.mp hmem with hmem | hmem
    · exact absurd hmem (by decide)
    · exact absurd (isDigit_of_mem_decimalNat hmem) (by decide)
  simp only [Settings.edit]
  rw [hpattern, htoken] at hid hno ⊢
  rw [replaceBehind_comm (by decide) (by decide) hid hno,
    replaceBehind_replaceBehind (by decide), replaceBehind_replaceBehind (by decide)]

/-- Of two edits of a text the second one counts. -/
theorem configure_configure (s s' : Settings) (text : CString) :
    configure s' (configure s text) = configure s' text := by
  have hedit : s'.edit ∘ s.edit = s'.edit := funext (edit_edit s s')
  rw [configure, eachLine, splitOn_configure, List.map_map, hedit]
  rfl

/-! ## Runs -/

/-- The `probe.conf` of a machine is the one of a package that was installed, but for edits that
the next one makes undone. -/
def Configured (shipped : Installation → Option CString) (t : Target) : Prop :=
  ∀ text ∈ t.probeConf, ∃ p ∈ t.installations, ∃ conf, shipped p = some conf ∧
    ∀ s, configure s text = configure s conf

section

variable {host : Host} {shipped : Installation → Option CString}

/-- The edit of the file that is there. -/
theorem Target.probeConf_configure (s : Settings) (t : Target) :
    (t.configure s).probeConf = t.probeConf.map (AlertProbe.configure s) := by
  obtain ⟨installations, executable, etc, service⟩ := t
  cases etc <;> rfl

/-- The copy of the informations leaves it alone. -/
theorem Target.probeConf_copy (informations : CString) (t : Target) :
    (t.copy informations).probeConf = t.probeConf := by
  obtain ⟨installations, executable, etc, service⟩ := t
  cases etc <;> rfl

/-- The package manager keeps the file, removes it or puts the one of a package. -/
theorem Configured.install {t : Target} (h : Configured shipped t)
    (manager : PackageManager shipped) (installations : List Installation) :
    Configured shipped (t.install manager installations) := by
  intro text htext
  change text ∈ (manager.etc installations t.etc).bind Etc.probeConf at htext
  have hmanages := manager.manages installations t.etc
  generalize manager.etc installations t.etc = etc at hmanages htext
  cases hmanages with
  | kept =>
      obtain ⟨p, hp, hshipped⟩ := h text htext
      exact ⟨p, List.mem_append_left _ hp, hshipped⟩
  | removed => cases htext
  | put _ hp hshipped =>
      cases htext
      exact ⟨_, List.mem_append_right _ hp, _, hshipped, fun _ => rfl⟩

/-- An edit of the file is one more that the next one makes undone. -/
theorem Configured.configure {t : Target} (h : Configured shipped t) (s : Settings) :
    Configured shipped (t.configure s) := by
  intro text htext
  rw [Target.probeConf_configure] at htext
  obtain ⟨before, hbefore, rfl⟩ := Option.mem_map.mp htext
  obtain ⟨p, hp, conf, hshipped, hconf⟩ := h before hbefore
  refine ⟨p, hp, conf, hshipped, fun s' => ?_⟩
  rw [configure_configure]
  exact hconf s'

/-- The steps behind leave the file alone. -/
theorem Configured.copy {t : Target} (h : Configured shipped t) (informations : CString) :
    Configured shipped (t.copy informations) := by
  intro text htext
  rw [Target.probeConf_copy] at htext
  exact h text htext

/-- A run keeps it so, wherever it ends. -/
theorem Configured.run {t : Target} (h : Configured shipped t) (manager : PackageManager shipped)
    (s : Settings) (responses : Responses) :
    Configured shipped (Target.behind (AlertProbe.install host manager s responses t)) := by
  have hinstalled := h.install manager
  unfold AlertProbe.install
  split
  · exact h
  · split
    · exact h
    · split
      · exact hinstalled _
      · rename_i loop _
        have hconfigured := (hinstalled loop.installations).configure s
        dsimp only
        split
        · exact hconfigured
        · rename_i informations _
          exact hconfigured.copy informations

/-- So it is whatever has happened on the machine. -/
theorem configured_of_reachable {t : Target} (h : (installers host shipped).Reachable t) :
    Configured shipped t := by
  refine h.invariant (P := Configured shipped) ?_ ?_
  · intro text htext
    cases htext
  · intro t a left hconfigured hstep
    change targetStep host t a = .next left at hstep
    cases a with
    | run manager s responses =>
        cases hstep
        exact hconfigured.run manager s responses
    | start =>
        cases hstep
        exact hconfigured
    | stop =>
        cases hstep
        exact hconfigured
    | ends locked =>
        simp only [targetStep] at hstep
        split at hstep <;> cases hstep
        exact hconfigured
    | restart =>
        simp only [targetStep] at hstep
        split at hstep <;> cases hstep
        exact hconfigured

/-- A run comes to its end when the responses are received and the packages are installed. -/
theorem install_eq_ok {manager : PackageManager shipped} {s : Settings} {responses : Responses}
    {t left : Target} :
    install host manager s responses t = .ok left ↔
      ∃ asset json_packages loop informations,
        receive host [] (ascii "asset_update_res") responses.asset = some asset ∧
        receive host [] (ascii "json_packages") responses.packages = some json_packages ∧
        packageLoop host json_packages = .ok loop ∧
        receive host (writtenFiles loop.installations) (ascii "informations.json")
          responses.informations = some informations ∧
        left = (((t.install manager loop.installations).configure s).copy informations).start := by
  unfold install
  constructor
  · intro hrun
    split at hrun
    · cases hrun
    · rename_i asset hasset
      split at hrun
      · cases hrun
      · rename_i json_packages hpackages
        split at hrun
        · cases hrun
        · rename_i loop hloop
          dsimp only at hrun
          split at hrun
          · cases hrun
          · rename_i informations hinformations
            cases hrun
            exact ⟨asset, json_packages, loop, informations, hasset, hpackages, hloop,
              hinformations, rfl⟩
  · rintro ⟨asset, json_packages, loop, informations, hasset, hpackages, hloop, hinformations, rfl⟩
    simp only [hasset, hpackages, hloop, hinformations]

/-- The informations are copied where the directory is. -/
theorem informations_of_copy {t : Target} {informations : CString} {etc : Etc}
    (h : etc ∈ (t.copy informations).etc) :
    etc.informations = some (eachLine newline unescapeJson informations) := by
  obtain ⟨before, -, rfl⟩ := Option.mem_map.mp h
  rfl

/-- The last run counts.  Whatever has happened on the machine before, with however many runs,
settings, responses and packages, and wherever the runs ended: a run that would come to its end on
a machine without the probe comes to its end here.  If there is a `probe.conf` then, it is the one
of a package that was installed, with the settings of this run; and the informations are those that
it leaves there.  A daemon that runs goes on with the file that it has read, unless the packages
stop it; otherwise it is started with the file of this run. -/
theorem last_run_wins {manager : PackageManager shipped} {s : Settings} {responses : Responses}
    {fresh : Target} (hfresh : install host manager s responses Target.empty = .ok fresh)
    {t : Target} (ht : (installers host shipped).Reachable t) :
    ∃ left, install host manager s responses t = .ok left ∧
      left.installations = t.installations ++ fresh.installations ∧
      (∀ text ∈ left.probeConf, ∃ p ∈ left.installations, ∃ conf, shipped p = some conf ∧
        text = configure s conf) ∧
      (∀ etc ∈ left.etc, ∀ freshEtc ∈ fresh.etc, etc.informations = freshEtc.informations) ∧
      (∀ probeConf, t.service = .running probeConf →
        manager.stops fresh.installations = false → left.service = .running probeConf) ∧
      (t.service = .stopped ∨ manager.stops fresh.installations = true →
        left.executable = true → left.service = .running left.probeConf) := by
  obtain ⟨asset, json_packages, loop, informations, hasset, hjson, hloop, hinformations, rfl⟩ :=
    install_eq_ok.mp hfresh
  refine ⟨_, install_eq_ok.mpr
    ⟨asset, json_packages, loop, informations, hasset, hjson, hloop, hinformations, rfl⟩,
    rfl, ?_, ?_, ?_, ?_⟩
  · intro text htext
    have hinstalled := (configured_of_reachable ht).install manager loop.installations
    change text ∈ Target.probeConf (((t.install manager loop.installations).configure s).copy
      informations) at htext
    rw [Target.probeConf_copy, Target.probeConf_configure] at htext
    obtain ⟨before, hbefore, rfl⟩ := Option.mem_map.mp htext
    obtain ⟨p, hp, conf, hshipped, hconf⟩ := hinstalled before hbefore
    exact ⟨p, hp, conf, hshipped, hconf s⟩
  · intro etc hetc freshEtc hfreshEtc
    rw [informations_of_copy hetc, informations_of_copy hfreshEtc]
  · intro probeConf hrunning hstops
    have hno : manager.stops loop.installations = false := hstops
    simp [Target.start, Target.copy, Target.configure, Target.install, hno, hrunning]
  · intro hstopped hexecutable
    have hservice : (((t.install manager loop.installations).configure s).copy
        informations).service = .stopped := by
      change (if manager.stops loop.installations = true then Service.stopped else t.service) = _
      by_cases hstops : manager.stops loop.installations = true
      · rw [if_pos hstops]
      · rw [if_neg hstops]
        exact hstopped.resolve_right hstops
    have hthere : (((t.install manager loop.installations).configure s).copy
        informations).executable = true := hexecutable
    simp only [Target.start, hservice, hthere, if_true]
    rfl

end

/-- Every package brings the example file. -/
def exampleShipped (_ : Installation) : Option CString :=
  some exampleConfText

/-- A package manager that keeps a directory that is there. -/
def exampleManager : PackageManager exampleShipped where
  executable installations before := before || installations != []
  etc
    | installations, none =>
        if installations = [] then none else some ⟨some exampleConfText, none⟩
    | _, some etc => some etc
  stops _ := false
  manages installations before := by
    cases before with
    | some etc => exact .kept _
    | none =>
        cases installations with
        | nil => exact .kept _
        | cons p installations => exact .put none List.mem_cons_self rfl

/-- Responses with one package. -/
def exampleResponses : Responses where
  asset := okHead.text
  packages := okHead.text ++
    ascii "[\n\x7b\n\"filename\": \"a.deb\",\n\"content\": \"QQ==\"\n\x7d\n]\n"
  informations := okHead.text ++ ascii "[]\n"

/-- The settings of an earlier run. -/
def earlierSettings : Settings :=
  ⟨7, ascii "old", by decide +kernel⟩

/-- What the first run leaves. -/
def firstInstalled : Target where
  installations := [⟨ascii "a.deb", some (ascii "A")⟩]
  executable := true
  etc := some ⟨some (configure earlierSettings exampleConfText), some (ascii "[]\n")⟩
  service := .running (some (configure earlierSettings exampleConfText))

/-- A second run leaves the file of its own, and the daemon of the first run. -/
theorem last_run_wins_example :
    (installers exampleHost exampleShipped).Reachable firstInstalled ∧
      ∃ left, install exampleHost exampleManager exampleSettings exampleResponses
          firstInstalled = .ok left ∧
        (∀ text ∈ left.probeConf, text = configure exampleSettings exampleConfText) ∧
        left.service = .running (some (configure earlierSettings exampleConfText)) := by
  have hfirst : (installers exampleHost exampleShipped).run Target.empty
      [.run exampleManager earlierSettings exampleResponses] = .next firstInstalled := by
    decide +kernel
  have hfresh : install exampleHost exampleManager exampleSettings exampleResponses
      Target.empty =
        .ok ⟨[⟨ascii "a.deb", some (ascii "A")⟩], true,
          some ⟨some (configure exampleSettings exampleConfText), some (ascii "[]\n")⟩,
          .running (some (configure exampleSettings exampleConfText))⟩ := by
    decide +kernel
  have hreachable : (installers exampleHost exampleShipped).Reachable firstInstalled :=
    Machine.reachableFrom_of_run hfirst
  have hservice : firstInstalled.service =
      .running (some (configure earlierSettings exampleConfText)) := by
    rw [firstInstalled]
  obtain ⟨left, hleft, -, hprobeConf, -, hrunning, -⟩ := last_run_wins hfresh hreachable
  refine ⟨hreachable, left, hleft, ?_, hrunning _ hservice rfl⟩
  intro text htext
  obtain ⟨p, -, conf, hshipped, htext⟩ := hprobeConf text htext
  rw [htext, ← Option.some.inj hshipped]

end AlertProbe
