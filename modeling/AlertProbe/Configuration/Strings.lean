import AlertProbe.Model.Daemon
import AlertProbe.Pipeline.Faults
import AlertProbe.Transport.Paths

/-!
# Strings of the configuration

The token, the plug-in directory and the name of the engine are copied from the key
file into `Conf`, and from there into the texts of `pushSDElementQueue` and into `uri`.
Only the first copies can overflow: what fits into `Conf` fits everywhere else.

Main results:

- Theorem `newSDElement_of_short` and `uri_of_short`: the texts behind `Conf`.
- Theorem `configuration_fits_iff`: the key files whose strings fit everywhere.
- Theorem `shipped_token_overflows`: the token of the configuration that is shipped.
-/

namespace AlertProbe

open Foundations

/-! ## Behind Conf -/

/-- A host name of at most 255 bytes and a token of at most 24 fit into the texts of every
element of the SD-Element queue. -/
theorem newSDElement_of_short {header : SDElementHeader} (hhostname : header.hostname.length ≤ 255)
    (happName : header.appName = APP_NAME) (htoken : header.token.length < 25)
    (afterOffset : CString) (time : Time) :
    ∃ new, newSDElement header afterOffset time = some new := by
  refine ⟨_, newSDElement_eq_some.mpr ⟨rfl, ?_, ?_⟩⟩
  · have hname : header.appName.length = 8 := by
      rw [happName]
      rfl
    have hpid := decimal_int32_length header.pID
    have hblank : (ascii " ").length = 1 := rfl
    have hid : (ascii " ID").length = 3 := rfl
    simp only [beforeMsgIDText, List.length_append, hname, hblank, hid]
    omega
  · have hversion : (decimal (header.transportMsgVersion.toNat : Int)).length ≤ 4 := by
      have hlt := header.transportMsgVersion.toNat_lt
      apply decimal_length_le (by decide)
      omega
    have hprobe := decimal_int32_length header.probeID.toInt32
    have hver : (ascii "[prop@40311 ver=").length = 16 := rfl
    have hprobeText : (ascii " probe=").length = 7 := rfl
    have htokenText : (ascii " token=\"").length = 8 := rfl
    have hoffset : (ascii "\"][res1@40311 offset=").length = 21 := rfl
    simp only [afterMsgIDText, List.length_append, hver, hprobeText, htokenText, hoffset]
    omega

/-- A name of at most 254 bytes fits into `uri`. -/
theorem uri_of_short {address : CString} (haddress : address.length < 255) :
    ∃ uri, strcat 265 (ascii "simple://") address = some uri := by
  refine ⟨_, strcat_eq_some.mpr ⟨rfl, ?_⟩⟩
  have hscheme : (ascii "simple://").length = 9 := rfl
  rw [List.length_append, hscheme]
  omega

/-! ## From the key file to the messages -/

/-- The strings of a key file that are copied fit into their fields: none are copied without an
identifier and a token. -/
def KeyFile.StringsFit (build : Build) (keyFile : KeyFile) : Prop :=
  ∀ probeID token, keyFile.probe_id = .value probeID → keyFile.token.value? = some token →
    token.length < 25 ∧ (keyFile.pluginDir build).length < 255 ∧ keyFile.engineFQDN.length < 255

/-- `main` has started its threads with the configuration that a call of `loadConf` loaded. -/
def StartedWith (build : Build) (result : LoadResult) (started : Started) : Prop :=
  result.status = exitSuccess ∧ ∃ argc pid env, env.loadConf = some result.conf ∧
    main build argc pid env = .ok started

/-- What the threads run with. -/
def Started.params (started : Started) (glib : GLib) : Params :=
  ⟨glib, started.sdElementQueue, started.senderParams⟩

/-- No copy of a string of the configuration overflows, from `loadConf` to the messages of every
run of the threads that `main` starts with it on a host whose name has at most 255 bytes.  What is
left undefined in a run is a reading that is too long, and a time difference that no `int`
holds. -/
structure ConfigurationFits (build : Build) (confPath : CString) (keyFile : KeyFile)
    (conf : Conf) : Prop where
  load : ∃ result, loadConf build confPath (.ok keyFile) conf = some result
  texts : ∀ result started, loadConf build confPath (.ok keyFile) conf = some result →
    StartedWith build result started → started.sdElementQueue.hostname.length ≤ 255 →
      ∀ afterOffset time, ∃ new,
        newSDElement started.sdElementQueue afterOffset time = some new
  uri : ∀ result started, loadConf build confPath (.ok keyFile) conf = some result →
    StartedWith build result started → ∃ uri,
      strcat 265 (ascii "simple://") started.senderParams.address = some uri
  run : ∀ result started, loadConf build confPath (.ok keyFile) conf = some result →
    StartedWith build result started → started.sdElementQueue.hostname.length ≤ 255 →
      ∀ (glib : GLib) (s : State) (a : Action), (probe (started.params glib)).Reachable s →
        step (started.params glib) s a = .undefined →
          (∃ e next, s.collectQueue.first = e :: next ∧ formatElement glib e = none) ∨
            ∃ (e : SDElementQueueElement) (env : SendEnv),
              s.sender = .sendMessage e ∧ messageOffset env.now e.time = none

/-- Where the texts of the header and the address fit, a step is undefined only because of a
reading that is too long or a time difference that no `int` holds. -/
theorem step_undefined_of_texts {p : Params} {s : State} {a : Action}
    (htexts : ∀ afterOffset time, ∃ new, newSDElement p.header afterOffset time = some new)
    (huri : ∃ uri, strcat 265 (ascii "simple://") p.sender.address = some uri)
    (h : step p s a = .undefined) :
    (∃ e next, s.collectQueue.first = e :: next ∧ formatElement p.glib e = none) ∨
      ∃ (e : SDElementQueueElement) (env : SendEnv),
        s.sender = .sendMessage e ∧ messageOffset env.now e.time = none := by
  rcases step_undefined h with hformat | ⟨env, hsender⟩
  · obtain ⟨e, next, hfirst, hnone | ⟨text, _, hnew⟩⟩ := formatStep_undefined hformat
    · exact Or.inl ⟨e, next, hfirst, hnone⟩
    · obtain ⟨new, hsome⟩ := htexts text e.time
      rw [hsome] at hnew
      cases hnew
  · rcases senderStep_undefined hsender with ⟨time, hnew⟩ | ⟨e, hpc, hsend⟩
    · obtain ⟨new, hsome⟩ := htexts (ascii "") time
      rw [hsome] at hnew
      cases hnew
    · rcases sendMessage_undefined hsend with hoffset | hnone
      · exact Or.inr ⟨e, env, hpc, hoffset⟩
      · obtain ⟨uri, hsome⟩ := huri
        rw [hsome] at hnone
        cases hnone

/-- What the threads are started with. -/
theorem started_of_loaded {build : Build} {confPath : CString} {keyFile : KeyFile} {conf : Conf}
    {result : LoadResult} {started : Started}
    (hload : loadConf build confPath (.ok keyFile) conf = some result)
    (hstarted : StartedWith build result started) :
    ∃ probeID token, keyFile.probe_id = .value probeID ∧ token.length < 25 ∧
      keyFile.engineFQDN.length < 255 ∧
      result.conf = keyFile.loadedConf build probeID token ∧
      result.logs = keyFile.loadedLogs confPath ∧
      started.sdElementQueue.appName = APP_NAME ∧
      started.sdElementQueue.token = token ∧
      started.sdElementQueue.probeID = result.conf.probeID ∧
      started.sdElementQueue.transportMsgVersion = result.conf.transportMsgVersion ∧
      started.senderParams =
        ⟨keyFile.engineFQDN, result.conf.enginePort, result.conf.transportProto⟩ := by
  obtain ⟨hsuccess, argc, pid, env, hconf, hmain⟩ := hstarted
  obtain ⟨probeID, token, hid, _, htoken, _, hfqdn, rfl⟩ :=
    loadConf_eq_some.mp ⟨hload, hsuccess⟩
  obtain ⟨hheader, hsender⟩ := main_conf hmain hconf
  rw [hheader]
  exact ⟨probeID, token, hid, htoken, hfqdn, rfl, rfl, rfl, rfl, rfl, rfl, hsender⟩

/-- What was loaded fits into the texts of the messages. -/
theorem texts_of_loaded {build : Build} {confPath : CString} {keyFile : KeyFile} {conf : Conf}
    {result : LoadResult} {started : Started}
    (hload : loadConf build confPath (.ok keyFile) conf = some result)
    (hstarted : StartedWith build result started)
    (hhostname : started.sdElementQueue.hostname.length ≤ 255) (afterOffset : CString)
    (time : Time) :
    ∃ new, newSDElement started.sdElementQueue afterOffset time = some new := by
  obtain ⟨_, token, _, htoken, _, _, _, happName, hcopied, _⟩ :=
    started_of_loaded hload hstarted
  apply newSDElement_of_short hhostname happName
  rw [hcopied]
  exact htoken

/-- What was loaded fits into `uri`. -/
theorem uri_of_loaded {build : Build} {confPath : CString} {keyFile : KeyFile} {conf : Conf}
    {result : LoadResult} {started : Started}
    (hload : loadConf build confPath (.ok keyFile) conf = some result)
    (hstarted : StartedWith build result started) :
    ∃ uri, strcat 265 (ascii "simple://") started.senderParams.address = some uri := by
  obtain ⟨_, _, _, _, hfqdn, _, _, _, _, _, _, hsender⟩ := started_of_loaded hload hstarted
  rw [hsender]
  exact uri_of_short hfqdn

/-- Strings that fit into `Conf` are loaded. -/
theorem load_of_stringsFit {build : Build} (confPath : CString) {keyFile : KeyFile}
    (conf : Conf) (h : keyFile.StringsFit build) :
    ∃ result, loadConf build confPath (.ok keyFile) conf = some result := by
  by_cases hmandatory :
      (∃ message, keyFile.probe_id = .error message) ∨ keyFile.token.value? = none
  · obtain ⟨result, hresult, _⟩ := loadConf_failure build confPath conf hmandatory
    exact ⟨result, hresult⟩
  · cases hid : keyFile.probe_id with
    | error message => exact absurd (Or.inl ⟨message, hid⟩) hmandatory
    | value probeID =>
        cases htoken : keyFile.token.value? with
        | none => exact absurd (Or.inr htoken) hmandatory
        | some token =>
            obtain ⟨hfits, hdir, hfqdn⟩ := h probeID token hid htoken
            have hloaded : loadConf build confPath (.ok keyFile) conf =
                some ⟨exitSuccess, keyFile.loadedConf build probeID token,
                  keyFile.loadedLogs confPath⟩ :=
              (loadConf_eq_some.mpr
                ⟨probeID, token, hid, htoken, hfits, hdir, hfqdn, rfl⟩).1
            exact ⟨_, hloaded⟩

/-- Strings that are loaded fit into `Conf`. -/
theorem stringsFit_of_load {build : Build} {confPath : CString} {keyFile : KeyFile}
    {conf : Conf} (h : ∃ result, loadConf build confPath (.ok keyFile) conf = some result) :
    keyFile.StringsFit build := by
  intro probeID token hid htoken
  obtain ⟨result, hload⟩ := h
  rw [loadConf_of_mandatory hid htoken, Option.bind_eq_some_iff] at hload
  obtain ⟨copied, hcopy, hrest⟩ := hload
  obtain ⟨hcopied, hfits⟩ := strcpy_eq_some.mp hcopy
  rw [hcopied] at hrest
  obtain ⟨hdir, hfqdn, _⟩ := loadOptionals_eq_some.mp hrest
  exact ⟨hfits, hdir, hfqdn⟩

/-- For every key file and build: no copy of a configured string overflows, from `loadConf` to
the messages, exactly when the strings fit into their fields of `Conf`. -/
theorem configuration_fits_iff (build : Build) (confPath : CString) (keyFile : KeyFile)
    (conf : Conf) :
    ConfigurationFits build confPath keyFile conf ↔ keyFile.StringsFit build := by
  constructor
  · intro hfits
    exact stringsFit_of_load hfits.load
  · intro hfits
    refine ⟨load_of_stringsFit confPath conf hfits, ?_, ?_, ?_⟩
    · intro result started hload hstarted hhostname
      exact texts_of_loaded hload hstarted hhostname
    · intro result started hload hstarted
      exact uri_of_loaded hload hstarted
    · intro result started hload hstarted hhostname glib s a _ hundefined
      have htexts := texts_of_loaded hload hstarted hhostname
      have huri := uri_of_loaded hload hstarted
      exact step_undefined_of_texts (p := started.params glib) htexts huri hundefined

/-- The key file that is shipped as `conf/probe.conf`. -/
def shippedKeyFile : KeyFile where
  probe_id := .value 0
  token := .text (ascii "abcdefghijklmnopqrstuvwxyz123456789")
  probe_plugin_dir := .text (ascii "/opt/echoes-alert/probe/etc/plugins/")
  transport_proto := .value 0
  transport_message_version := .value 3
  engine_fqdn := .text (ascii "alert-engine.echoes-tech.com")
  engine_port := .value 443

/-- Its token takes 35 bytes, eleven more than `Conf` has room for. -/
theorem shipped_token_overflows :
    loadConf .release (ascii "/opt/echoes-alert/probe/etc/probe.conf") (.ok shippedKeyFile)
      CONF_INITIALIZER = none ∧
    ¬ ConfigurationFits .release (ascii "/opt/echoes-alert/probe/etc/probe.conf") shippedKeyFile
      CONF_INITIALIZER := by
  have hload : loadConf .release (ascii "/opt/echoes-alert/probe/etc/probe.conf")
      (.ok shippedKeyFile) CONF_INITIALIZER = none := by
    decide
  refine ⟨hload, ?_⟩
  intro hfits
  obtain ⟨result, hresult⟩ := hfits.load
  rw [hload] at hresult
  cases hresult

end AlertProbe
