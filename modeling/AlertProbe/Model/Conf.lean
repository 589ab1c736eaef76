import AlertProbe.Model.Data

/-!
# Loading the configuration

`loadConf` of `conf.c`.  What GLib's getters make of the value of a key is the input
`KeyFile`; the getters themselves are `getInteger` and `getString`, which set an error
only when none is set.  A result `none` of `loadConf` is undefined behaviour: a copy
behind the end of a field.

Main results:

- Theorem `loadOptionalInteger_eq`: an optional integer, with and without an error left over
  from an earlier key.
- Theorem `loadOptionalString_eq_some`: an optional string.
- Theorem `loadConf_eq_some`: the configuration that a key file gives.
-/

namespace AlertProbe

open Foundations

/-- Whether `NDEBUG` is defined. -/
inductive Build where
  | debug
  | release
deriving DecidableEq, Repr

/-- `Conf`. -/
structure Conf where
  probeID : UInt32
  enginePort : UInt16
  transportProto : UInt8
  transportMsgVersion : UInt8
  probePluginDir : CString
  engineFQDN : CString
  token : CString
deriving DecidableEq, Repr

/-- `CONF_INITIALIZER`. -/
def CONF_INITIALIZER : Conf :=
  ⟨0, 0, 0, 0, [], [], []⟩

/-! ## Key files -/

/-- What `g_key_file_get_integer` finds: an integer, or the message of its error. -/
inductive IntegerValue where
  | value (z : Int32)
  | error (message : CString)
deriving DecidableEq, Repr

/-- What `g_key_file_get_string` finds.  A missing key and a value that is not UTF-8 give NULL
and an error, a value with an invalid escape sequence gives a string and an error. -/
inductive StringValue where
  | text (value : CString)
  | invalidEscape (value message : CString)
  | missing (message : CString)
deriving DecidableEq, Repr

/-- A key file, by the keys that `loadConf` reads. -/
structure KeyFile where
  probe_id : IntegerValue
  token : StringValue
  probe_plugin_dir : StringValue
  transport_proto : IntegerValue
  transport_message_version : IntegerValue
  engine_fqdn : StringValue
  engine_port : IntegerValue
deriving DecidableEq, Repr

/-- The keys. -/
inductive Key where
  | probe_id
  | token
  | probe_plugin_dir
  | transport_proto
  | transport_message_version
  | engine_fqdn
  | engine_port
deriving DecidableEq, Repr

/-- A message of a `GError`, if one is set. -/
abbrev GError := Option CString

/-- Set an error; one that is set already stays. -/
def GError.set (error : GError) (message : CString) : GError :=
  match error with
  | none => some message
  | some earlier => some earlier

/-- `g_key_file_get_integer`, with its result and `*error` afterwards. -/
def getInteger (read : IntegerValue) (error : GError) : Int32 × GError :=
  match read with
  | .value z => (z, error)
  | .error message => (0, error.set message)

/-- `g_key_file_get_string`, with its result and `*error` afterwards. -/
def getString (read : StringValue) (error : GError) : Option CString × GError :=
  match read with
  | .text value => (some value, error)
  | .invalidEscape value message => (some value, error.set message)
  | .missing message => (none, error.set message)

/-! ## loadConf -/

inductive LogLevel where
  | critical
  | warning
deriving DecidableEq, Repr

/-- A logged message and, as a history variable, the key that was being read. -/
structure LogEntry where
  level : LogLevel
  key : Option Key
  message : CString
deriving DecidableEq, Repr

/-- The text `"%s: %s\n"` with the path and an error. -/
def logText (confPath message : CString) : CString :=
  confPath ++ ascii ": " ++ message ++ ascii "\n"

/-- `*conf`, `error` and the log while the keys are read. -/
structure LoadState where
  conf : Conf
  error : GError
  logs : List LogEntry
deriving DecidableEq, Repr

/-- `int` to `unsigned char`. -/
def toUnsignedChar (z : Int32) : UInt8 :=
  z.toUInt32.toUInt8

/-- `int` to `unsigned short`. -/
def toUnsignedShort (z : Int32) : UInt16 :=
  z.toUInt32.toUInt16

/-- Read an optional integer: with an error set, take the default and clear the error. -/
def loadOptionalInteger (confPath : CString) (key : Key) (read : IntegerValue)
    (default : Int32) (assign : Conf → Int32 → Conf) (s : LoadState) : LoadState :=
  let (value, error) := getInteger read s.error
  let conf := assign s.conf value
  match error with
  | none => { s with conf := conf, error := none }
  | some message =>
      { conf := assign conf default
        error := none
        logs := s.logs ++ [⟨.warning, some key, logText confPath message⟩] }

/-- Read an optional string: without a value, take the default and clear the error.  `present`
is what is copied when there is a value. -/
def loadOptionalString (confPath : CString) (key : Key) (read : StringValue)
    (default : CString) (present : CString → CString) (assign : Conf → CString → Conf)
    (s : LoadState) : Option LoadState :=
  match getString read s.error with
  | (none, error) => do
      let field ← strcpy 255 default
      let message ← error
      some
        { conf := assign s.conf field
          error := none
          logs := s.logs ++ [⟨.warning, some key, logText confPath message⟩] }
  | (some value, error) => do
      let field ← strcpy 255 (present value)
      some { s with conf := assign s.conf field, error := error }

/-- The plug-in directory that is copied when the key is missing. -/
def defaultPluginDir : Build → CString
  | .release => ascii "/opt/echoes-alert/probe/etc/plugins/"
  | .debug => ascii "./plugins/"

/-- The plug-in directory that is copied when the key has the given value. -/
def presentPluginDir : Build → CString → CString
  | .release, value => value
  | .debug, _ => ascii "./plugins/"

/-- `alert-engine.echoes-tech.com`. -/
def defaultEngineFQDN : CString :=
  ascii "alert-engine.echoes-tech.com"

/-- Get `probe_plugin_dir`. -/
def loadProbePluginDir (build : Build) (confPath : CString) (keyFile : KeyFile) :
    LoadState → Option LoadState :=
  loadOptionalString confPath .probe_plugin_dir keyFile.probe_plugin_dir
    (defaultPluginDir build) (presentPluginDir build)
    fun conf field => { conf with probePluginDir := field }

/-- Get `transport_proto`. -/
def loadTransportProto (confPath : CString) (keyFile : KeyFile) : LoadState → LoadState :=
  loadOptionalInteger confPath .transport_proto keyFile.transport_proto 0
    fun conf z => { conf with transportProto := toUnsignedChar z }

/-- Get `transport_message_version`. -/
def loadTransportMsgVersion (confPath : CString) (keyFile : KeyFile) : LoadState → LoadState :=
  loadOptionalInteger confPath .transport_message_version keyFile.transport_message_version 2
    fun conf z => { conf with transportMsgVersion := toUnsignedChar z }

/-- Get `engine_fqdn`. -/
def loadEngineFQDN (confPath : CString) (keyFile : KeyFile) : LoadState → Option LoadState :=
  loadOptionalString confPath .engine_fqdn keyFile.engine_fqdn defaultEngineFQDN id
    fun conf field => { conf with engineFQDN := field }

/-- Get `engine_port`.  Nothing reads the error behind it. -/
def loadEnginePort (confPath : CString) (keyFile : KeyFile) : LoadState → LoadState :=
  loadOptionalInteger confPath .engine_port keyFile.engine_port 443
    fun conf z => { conf with enginePort := toUnsignedShort z }

/-- The exit status of `loadConf`, what it leaves in `*conf` and what it logs. -/
structure LoadResult where
  status : Int32
  conf : Conf
  logs : List LogEntry
deriving DecidableEq, Repr

/-- The part of `loadConf` behind the token. -/
def loadOptionals (build : Build) (confPath : CString) (keyFile : KeyFile) (s : LoadState) :
    Option LoadResult := do
  let s ← loadProbePluginDir build confPath keyFile s
  let s := loadTransportProto confPath keyFile s
  let s := loadTransportMsgVersion confPath keyFile s
  let s ← loadEngineFQDN confPath keyFile s
  let s := loadEnginePort confPath keyFile s
  some ⟨exitSuccess, s.conf, s.logs⟩

/-- `loadConf`, on a file that could not be loaded or on a key file. -/
def loadConf (build : Build) (confPath : CString) (file : Except CString KeyFile)
    (conf : Conf) : Option LoadResult :=
  match file with
  | .error message =>
      some ⟨exitFailure, conf,
        [⟨.critical, none,
          ascii "Could not open file '" ++ confPath ++ ascii "': " ++ message ++ ascii "\n"⟩]⟩
  | .ok keyFile =>
      let (probeID, error) := getInteger keyFile.probe_id none
      let conf := { conf with probeID := probeID.toUInt32 }
      match error with
      | some message =>
          some ⟨exitFailure, conf, [⟨.critical, some .probe_id, logText confPath message⟩]⟩
      | none =>
          match getString keyFile.token none with
          | (none, error) => do
              let message ← error
              some ⟨exitFailure, conf, [⟨.critical, some .token, logText confPath message⟩]⟩
          | (some value, error) => do
              let token ← strcpy 25 value
              loadOptionals build confPath keyFile ⟨{ conf with token := token }, error, []⟩

/-! ## What each key gives -/

/-- The integer that is used: with an error set, the default. -/
def IntegerValue.used (read : IntegerValue) (error : GError) (default : Int32) : Int32 :=
  match error, read with
  | none, .value z => z
  | _, _ => default

/-- The warnings logged while an optional integer is read. -/
def IntegerValue.warnings (read : IntegerValue) (confPath : CString) (key : Key)
    (error : GError) : List LogEntry :=
  match (getInteger read error).2 with
  | none => []
  | some message => [⟨.warning, some key, logText confPath message⟩]

/-- The string that is copied into the field of an optional string. -/
def StringValue.copied (read : StringValue) (default : CString) (present : CString → CString) :
    CString :=
  match read with
  | .text value => present value
  | .invalidEscape value _ => present value
  | .missing _ => default

/-- The error that is set when the next key is read. -/
def StringValue.leaves (read : StringValue) (error : GError) : GError :=
  match read with
  | .text _ => error
  | .invalidEscape _ message => error.set message
  | .missing _ => none

/-- The warnings logged while an optional string is read. -/
def StringValue.warnings (read : StringValue) (confPath : CString) (key : Key)
    (error : GError) : List LogEntry :=
  match read with
  | .text _ => []
  | .invalidEscape _ _ => []
  | .missing message => [⟨.warning, some key, logText confPath (error.getD message)⟩]

/-- The string that the getter returns for a mandatory string. -/
def StringValue.value? : StringValue → Option CString
  | .text value => some value
  | .invalidEscape value _ => some value
  | .missing _ => none

/-- Behind a failed read an error is set. -/
theorem GError.set_eq (error : GError) (message : CString) :
    error.set message = some (Option.getD error message) := by
  cases error <;> rfl

/-- An optional integer assigns the integer that is used, and leaves no error behind. -/
theorem loadOptionalInteger_eq {confPath : CString} {key : Key} {read : IntegerValue}
    {default : Int32} {assign : Conf → Int32 → Conf}
    (hassign : ∀ conf z z', assign (assign conf z) z' = assign conf z') (s : LoadState) :
    loadOptionalInteger confPath key read default assign s =
      { conf := assign s.conf (read.used s.error default)
        error := none
        logs := s.logs ++ read.warnings confPath key s.error } := by
  obtain ⟨conf, error, logs⟩ := s
  cases error with
  | none =>
      cases read with
      | value z => simp [loadOptionalInteger, getInteger, IntegerValue.used,
          IntegerValue.warnings]
      | error message => simp [loadOptionalInteger, getInteger, IntegerValue.used,
          IntegerValue.warnings, GError.set, hassign]
  | some earlier =>
      cases read with
      | value z => simp [loadOptionalInteger, getInteger, IntegerValue.used,
          IntegerValue.warnings, hassign]
      | error message => simp [loadOptionalInteger, getInteger, IntegerValue.used,
          IntegerValue.warnings, GError.set, hassign]

/-- A string that the getter returns is copied, and the error behind it stays. -/
theorem loadOptionalString_of_value {confPath : CString} {key : Key} {read : StringValue}
    {default value : CString} {present : CString → CString} {assign : Conf → CString → Conf}
    {error : GError} {s s' : LoadState} (hread : getString read s.error = (some value, error)) :
    loadOptionalString confPath key read default present assign s = some s' ↔
      (present value).length < 255 ∧
        s' = { s with conf := assign s.conf (present value), error := error } := by
  simp only [loadOptionalString, hread, Option.bind_eq_bind, Option.bind_eq_some_iff,
    strcpy_eq_some, Option.some.injEq]
  constructor
  · rintro ⟨_, ⟨rfl, hfits⟩, rfl⟩
    exact ⟨hfits, rfl⟩
  · rintro ⟨hfits, rfl⟩
    exact ⟨_, ⟨rfl, hfits⟩, rfl⟩

/-- An optional string is copied exactly when it fits; only a missing one clears the error. -/
theorem loadOptionalString_eq_some {confPath : CString} {key : Key} {read : StringValue}
    {default : CString} {present : CString → CString} {assign : Conf → CString → Conf}
    {s s' : LoadState} :
    loadOptionalString confPath key read default present assign s = some s' ↔
      (read.copied default present).length < 255 ∧
        s' =
          { conf := assign s.conf (read.copied default present)
            error := read.leaves s.error
            logs := s.logs ++ read.warnings confPath key s.error } := by
  cases read with
  | text value =>
      rw [loadOptionalString_of_value rfl, StringValue.warnings, List.append_nil]
      rfl
  | invalidEscape value message =>
      rw [loadOptionalString_of_value rfl, StringValue.warnings, List.append_nil]
      rfl
  | missing message =>
      simp only [loadOptionalString, getString, GError.set_eq, Option.bind_eq_bind,
        Option.bind_eq_some_iff, strcpy_eq_some, Option.some.injEq, StringValue.copied,
        StringValue.leaves, StringValue.warnings]
      constructor
      · rintro ⟨_, ⟨rfl, hfits⟩, _, rfl, rfl⟩
        exact ⟨hfits, rfl⟩
      · rintro ⟨hfits, rfl⟩
        exact ⟨_, ⟨rfl, hfits⟩, _, rfl, rfl⟩

/-! ## What a key file gives -/

namespace KeyFile

variable (keyFile : KeyFile)

/-- The error that is set when `transport_proto` is read. -/
def errorAtTransportProto : GError :=
  keyFile.probe_plugin_dir.leaves (keyFile.token.leaves none)

/-- The error that is set when `engine_port` is read. -/
def errorAtEnginePort : GError :=
  keyFile.engine_fqdn.leaves none

/-- The plug-in directory that is copied. -/
def pluginDir (build : Build) : CString :=
  keyFile.probe_plugin_dir.copied (defaultPluginDir build) (presentPluginDir build)

/-- The name of the engine that is copied. -/
def engineFQDN : CString :=
  keyFile.engine_fqdn.copied defaultEngineFQDN id

/-- The configuration that is loaded when nothing fails and everything fits. -/
def loadedConf (build : Build) (probeID : Int32) (token : CString) : Conf where
  probeID := probeID.toUInt32
  enginePort := toUnsignedShort (keyFile.engine_port.used keyFile.errorAtEnginePort 443)
  transportProto :=
    toUnsignedChar (keyFile.transport_proto.used keyFile.errorAtTransportProto 0)
  transportMsgVersion := toUnsignedChar (keyFile.transport_message_version.used none 2)
  probePluginDir := keyFile.pluginDir build
  engineFQDN := keyFile.engineFQDN
  token := token

/-- The log of a call that succeeds. -/
def loadedLogs (confPath : CString) : List LogEntry :=
  keyFile.probe_plugin_dir.warnings confPath .probe_plugin_dir (keyFile.token.leaves none) ++
    keyFile.transport_proto.warnings confPath .transport_proto keyFile.errorAtTransportProto ++
    keyFile.transport_message_version.warnings confPath .transport_message_version none ++
    keyFile.engine_fqdn.warnings confPath .engine_fqdn none ++
    keyFile.engine_port.warnings confPath .engine_port keyFile.errorAtEnginePort

end KeyFile

/-- Reading `probe_plugin_dir`. -/
theorem loadProbePluginDir_eq_some {build : Build} {confPath : CString} {keyFile : KeyFile}
    {s s' : LoadState} :
    loadProbePluginDir build confPath keyFile s = some s' ↔
      (keyFile.pluginDir build).length < 255 ∧
        s' =
          { conf := { s.conf with probePluginDir := keyFile.pluginDir build }
            error := keyFile.probe_plugin_dir.leaves s.error
            logs := s.logs ++
              keyFile.probe_plugin_dir.warnings confPath .probe_plugin_dir s.error } :=
  loadOptionalString_eq_some

/-- Reading `transport_proto`. -/
theorem loadTransportProto_eq (confPath : CString) (keyFile : KeyFile) (s : LoadState) :
    loadTransportProto confPath keyFile s =
      { conf :=
          { s.conf with
            transportProto := toUnsignedChar (keyFile.transport_proto.used s.error 0) }
        error := none
        logs := s.logs ++
          keyFile.transport_proto.warnings confPath .transport_proto s.error } := by
  rw [loadTransportProto, loadOptionalInteger_eq]
  intro conf z z'
  rfl

/-- Reading `transport_message_version`. -/
theorem loadTransportMsgVersion_eq (confPath : CString) (keyFile : KeyFile) (s : LoadState) :
    loadTransportMsgVersion confPath keyFile s =
      { conf :=
          { s.conf with
            transportMsgVersion :=
              toUnsignedChar (keyFile.transport_message_version.used s.error 2) }
        error := none
        logs := s.logs ++
          keyFile.transport_message_version.warnings confPath .transport_message_version
            s.error } := by
  rw [loadTransportMsgVersion, loadOptionalInteger_eq]
  intro conf z z'
  rfl

/-- Reading `engine_fqdn`. -/
theorem loadEngineFQDN_eq_some {confPath : CString} {keyFile : KeyFile} {s s' : LoadState} :
    loadEngineFQDN confPath keyFile s = some s' ↔
      keyFile.engineFQDN.length < 255 ∧
        s' =
          { conf := { s.conf with engineFQDN := keyFile.engineFQDN }
            error := keyFile.engine_fqdn.leaves s.error
            logs := s.logs ++ keyFile.engine_fqdn.warnings confPath .engine_fqdn s.error } :=
  loadOptionalString_eq_some

/-- Reading `engine_port`. -/
theorem loadEnginePort_eq (confPath : CString) (keyFile : KeyFile) (s : LoadState) :
    loadEnginePort confPath keyFile s =
      { conf :=
          { s.conf with
            enginePort := toUnsignedShort (keyFile.engine_port.used s.error 443) }
        error := none
        logs := s.logs ++ keyFile.engine_port.warnings confPath .engine_port s.error } := by
  rw [loadEnginePort, loadOptionalInteger_eq]
  intro conf z z'
  rfl

/-- The optional keys are loaded exactly when the two strings fit. -/
theorem loadOptionals_eq_some {build : Build} {confPath : CString} {keyFile : KeyFile}
    {conf : Conf} {probeID : Int32} {token : CString} {result : LoadResult} :
    loadOptionals build confPath keyFile
        ⟨{ conf with probeID := probeID.toUInt32, token := token },
          keyFile.token.leaves none, []⟩ = some result ↔
      (keyFile.pluginDir build).length < 255 ∧ keyFile.engineFQDN.length < 255 ∧
        result = ⟨exitSuccess, keyFile.loadedConf build probeID token,
          keyFile.loadedLogs confPath⟩ := by
  simp only [loadOptionals, Option.bind_eq_bind, Option.bind_eq_some_iff,
    loadProbePluginDir_eq_some, loadTransportProto_eq, loadTransportMsgVersion_eq,
    loadEngineFQDN_eq_some, loadEnginePort_eq, Option.some.injEq]
  constructor
  · rintro ⟨_, ⟨hdir, rfl⟩, _, ⟨hfqdn, rfl⟩, rfl⟩
    exact ⟨hdir, hfqdn, rfl⟩
  · rintro ⟨hdir, hfqdn, rfl⟩
    exact ⟨_, ⟨hdir, rfl⟩, _, ⟨hfqdn, rfl⟩, rfl⟩

/-- The getter of a mandatory string. -/
theorem getString_eq (read : StringValue) (error : GError) :
    (getString read error).1 = read.value? ∧
      (read.value? ≠ none → (getString read error).2 = read.leaves error) := by
  cases read with
  | text value => exact ⟨rfl, fun _ => rfl⟩
  | invalidEscape value message => exact ⟨rfl, fun _ => rfl⟩
  | missing message => exact ⟨rfl, fun h => absurd rfl h⟩

/-- Behind the identifier and the token, `loadConf` copies the token and goes on. -/
theorem loadConf_of_mandatory {build : Build} {confPath : CString} {keyFile : KeyFile}
    {conf : Conf} {probeID : Int32} {token : CString} (hid : keyFile.probe_id = .value probeID)
    (htoken : keyFile.token.value? = some token) :
    loadConf build confPath (.ok keyFile) conf =
      (strcpy 25 token).bind fun token =>
        loadOptionals build confPath keyFile
          ⟨{ conf with probeID := probeID.toUInt32, token := token },
            keyFile.token.leaves none, []⟩ := by
  have hread := getString_eq keyFile.token none
  have hvalue : getString keyFile.token none = (some token, keyFile.token.leaves none) := by
    apply Prod.ext
    · exact hread.1.trans htoken
    · exact hread.2 (by simp [htoken])
  simp only [loadConf, hid, getInteger, hvalue]
  rfl

/-- Without an identifier or a token, `loadConf` fails. -/
theorem loadConf_failure (build : Build) (confPath : CString) {keyFile : KeyFile} (conf : Conf)
    (h : (∃ message, keyFile.probe_id = .error message) ∨ keyFile.token.value? = none) :
    ∃ result, loadConf build confPath (.ok keyFile) conf = some result ∧
      result.status = exitFailure := by
  cases hid : keyFile.probe_id with
  | error message =>
      simp only [loadConf, hid, getInteger, GError.set]
      exact ⟨_, rfl, rfl⟩
  | value probeID =>
      have htoken : keyFile.token.value? = none := by
        rcases h with ⟨message, hmessage⟩ | htoken
        · rw [hid] at hmessage
          cases hmessage
        · exact htoken
      cases hread : keyFile.token with
      | text value => simp [hread, StringValue.value?] at htoken
      | invalidEscape value message => simp [hread, StringValue.value?] at htoken
      | missing message =>
          simp only [loadConf, hid, getInteger, hread, getString, GError.set,
            Option.bind_eq_bind, Option.bind_some]
          exact ⟨_, rfl, rfl⟩

/-- With an identifier and a token, `loadConf` succeeds, exactly when the three strings fit. -/
theorem loadConf_eq_some {build : Build} {confPath : CString} {keyFile : KeyFile} {conf : Conf}
    {result : LoadResult} :
    loadConf build confPath (.ok keyFile) conf = some result ∧ result.status = exitSuccess ↔
      ∃ probeID token, keyFile.probe_id = .value probeID ∧
        keyFile.token.value? = some token ∧
        token.length < 25 ∧ (keyFile.pluginDir build).length < 255 ∧
        keyFile.engineFQDN.length < 255 ∧
        result = ⟨exitSuccess, keyFile.loadedConf build probeID token,
          keyFile.loadedLogs confPath⟩ := by
  have hfailure : exitFailure ≠ exitSuccess := by decide
  constructor
  · rintro ⟨h, hsuccess⟩
    have hmandatory : ¬ ((∃ message, keyFile.probe_id = .error message) ∨
        keyFile.token.value? = none) := by
      intro hmissing
      obtain ⟨failed, hfailed, hstatus⟩ := loadConf_failure build confPath conf hmissing
      rw [h, Option.some.injEq] at hfailed
      rw [← hfailed, hsuccess] at hstatus
      exact hfailure hstatus.symm
    cases hid : keyFile.probe_id with
    | error message => exact absurd (Or.inl ⟨message, hid⟩) hmandatory
    | value probeID =>
        cases htoken : keyFile.token.value? with
        | none => exact absurd (Or.inr htoken) hmandatory
        | some token =>
            rw [loadConf_of_mandatory hid htoken, Option.bind_eq_some_iff] at h
            obtain ⟨copied, hcopy, hrest⟩ := h
            obtain ⟨hcopied, hfits⟩ := strcpy_eq_some.mp hcopy
            rw [hcopied] at hrest
            obtain ⟨hdir, hfqdn, hresult⟩ := loadOptionals_eq_some.mp hrest
            exact ⟨probeID, token, rfl, rfl, hfits, hdir, hfqdn, hresult⟩
  · rintro ⟨probeID, token, hid, htoken, hfits, hdir, hfqdn, rfl⟩
    rw [loadConf_of_mandatory hid htoken, Option.bind_eq_some_iff]
    refine ⟨⟨token, strcpy_eq_some.mpr ⟨rfl, hfits⟩, ?_⟩, rfl⟩
    exact loadOptionals_eq_some.mpr ⟨hdir, hfqdn, rfl⟩

/-- The key file with all keys of the unit tests. -/
def completeKeyFile : KeyFile where
  probe_id := .value 10
  token := .text (ascii "abcdefghijklmo0123456789")
  probe_plugin_dir := .text (ascii "./test/")
  transport_proto := .value 11
  transport_message_version := .value 12
  engine_fqdn := .text (ascii "127.0.0.1")
  engine_port := .value 13

example : (loadConf .release (ascii "complete.conf") (.ok completeKeyFile)
    CONF_INITIALIZER).map LoadResult.conf =
      some ⟨10, 13, 11, 12, ascii "./test/", ascii "127.0.0.1",
        ascii "abcdefghijklmo0123456789"⟩ := by
  decide

end AlertProbe
