import AlertProbe.Model.Conf

/-!
# Fields and their keys

Integer reads test `error`, string reads test the string.  A string with an invalid
escape sequence comes with an error that no test sees, and the next integer read
takes it for its own.

Main results:

- Theorem `IntegerValue.used_eq`: an integer read with and without an error left over.
- Theorems `errorAtTransportProto_eq_none` and `errorAtEnginePort_eq_none`: which key files
  leave an error over.
- Theorem `fields_apart_iff`: when every optional field depends on its own key alone.
- Theorem `token_error_resets_protocol`: a token that changes the protocol.
-/

namespace AlertProbe

open Foundations

/-! ## What a key says by itself -/

/-- The integer of a key: its value, or the default. -/
def IntegerValue.own (read : IntegerValue) (default : Int32) : Int32 :=
  match read with
  | .value z => z
  | .error _ => default

/-- The string of a key: its value when that is well-formed, or the default. -/
def StringValue.own (read : StringValue) (default : CString) : CString :=
  match read with
  | .text value => value
  | .invalidEscape _ _ => default
  | .missing _ => default

/-- Every optional field has what its own key says. -/
structure FieldsApart (build : Build) (keyFile : KeyFile) (conf : Conf) : Prop where
  probePluginDir : build = .release →
    conf.probePluginDir = keyFile.probe_plugin_dir.own (defaultPluginDir .release)
  transportProto : conf.transportProto = toUnsignedChar (keyFile.transport_proto.own 0)
  transportMsgVersion :
    conf.transportMsgVersion = toUnsignedChar (keyFile.transport_message_version.own 2)
  engineFQDN : conf.engineFQDN = keyFile.engine_fqdn.own defaultEngineFQDN
  enginePort : conf.enginePort = toUnsignedShort (keyFile.engine_port.own 443)

/-! ## Errors left over -/

/-- The value of the key has an invalid escape sequence. -/
def StringValue.badEscape : StringValue → Bool
  | .invalidEscape _ _ => true
  | _ => false

/-- The getter returns NULL. -/
def StringValue.isMissing : StringValue → Bool
  | .missing _ => true
  | _ => false

/-- An error is left over when `transport_proto` is read. -/
def KeyFile.staleAtTransportProto (keyFile : KeyFile) : Bool :=
  keyFile.probe_plugin_dir.badEscape ||
    (keyFile.token.badEscape && !keyFile.probe_plugin_dir.isMissing)

/-- An error is left over when `engine_port` is read. -/
def KeyFile.staleAtEnginePort (keyFile : KeyFile) : Bool :=
  keyFile.engine_fqdn.badEscape

/-- An integer read takes the default exactly when an error is left over or it fails itself. -/
theorem IntegerValue.used_eq (read : IntegerValue) (error : GError) (default : Int32) :
    read.used error default = if error = none then read.own default else default := by
  cases error with
  | none => cases read <;> rfl
  | some message => cases read <;> rfl

/-- A string that was read leaves its own error or the earlier one. -/
theorem StringValue.leaves_eq_none (read : StringValue) (error : GError) :
    read.leaves error = none ↔ read.badEscape = false ∧ (error = none ∨ read.isMissing = true) := by
  cases read with
  | text value => simp [leaves, badEscape, isMissing]
  | invalidEscape value message => simp [leaves, badEscape, GError.set_eq]
  | missing message => simp [leaves, badEscape, isMissing]

/-- Which key files leave no error over for `transport_proto`. -/
theorem errorAtTransportProto_eq_none (keyFile : KeyFile) :
    keyFile.errorAtTransportProto = none ↔ keyFile.staleAtTransportProto = false := by
  rw [KeyFile.errorAtTransportProto, StringValue.leaves_eq_none, StringValue.leaves_eq_none]
  cases hbad : keyFile.token.badEscape with
  | false => simp [KeyFile.staleAtTransportProto, hbad]
  | true => simp [KeyFile.staleAtTransportProto, hbad]

/-- Which key files leave no error over for `engine_port`. -/
theorem errorAtEnginePort_eq_none (keyFile : KeyFile) :
    keyFile.errorAtEnginePort = none ↔ keyFile.staleAtEnginePort = false := by
  rw [KeyFile.errorAtEnginePort, StringValue.leaves_eq_none]
  simp [KeyFile.staleAtEnginePort]

/-! ## Fields -/

/-- No value with an invalid escape sequence shows: the strings that GLib makes of it are the
defaults, and so are the integers that are read behind it. -/
structure KeyFile.ReadsApart (build : Build) (keyFile : KeyFile) : Prop where
  probe_plugin_dir : build = .release → ∀ value message,
    keyFile.probe_plugin_dir = .invalidEscape value message → value = defaultPluginDir .release
  transport_proto : keyFile.staleAtTransportProto = true →
    toUnsignedChar (keyFile.transport_proto.own 0) = 0
  engine_fqdn : ∀ value message,
    keyFile.engine_fqdn = .invalidEscape value message → value = defaultEngineFQDN
  engine_port : keyFile.staleAtEnginePort = true →
    toUnsignedShort (keyFile.engine_port.own 443) = 443

/-- The string that is copied is the key's own, unless it has an invalid escape sequence. -/
theorem StringValue.copied_eq_own_iff (read : StringValue) (default : CString) :
    read.copied default id = read.own default ↔
      ∀ value message, read = .invalidEscape value message → value = default := by
  cases read with
  | text value => simp [copied, own]
  | invalidEscape value message => simp [copied, own]
  | missing message => simp [copied, own]

/-- A field of an integer is the key's own, unless an error is left over and the two differ. -/
theorem IntegerValue.assigned_eq_own_iff {α : Type} (convert : Int32 → α) (read : IntegerValue)
    (error : GError) (default : Int32) :
    convert (read.used error default) = convert (read.own default) ↔
      (error ≠ none → convert (read.own default) = convert default) := by
  rw [IntegerValue.used_eq]
  by_cases herror : error = none
  · simp [herror]
  · simp only [herror, if_false, ne_eq, not_false_eq_true, forall_const]
    exact eq_comm

/-- In every call of `loadConf` that succeeds, whatever `*conf` held before, the optional fields
depend on their own keys alone, exactly when no invalid escape sequence shows. -/
theorem fields_apart_iff {build : Build} {confPath : CString} {keyFile : KeyFile} {conf : Conf}
    {result : LoadResult} (h : loadConf build confPath (.ok keyFile) conf = some result)
    (hsuccess : result.status = exitSuccess) :
    FieldsApart build keyFile result.conf ↔ keyFile.ReadsApart build := by
  obtain ⟨probeID, token, _, _, _, _, _, rfl⟩ := loadConf_eq_some.mp ⟨h, hsuccess⟩
  have hproto := IntegerValue.assigned_eq_own_iff toUnsignedChar keyFile.transport_proto
    keyFile.errorAtTransportProto 0
  have hport := IntegerValue.assigned_eq_own_iff toUnsignedShort keyFile.engine_port
    keyFile.errorAtEnginePort 443
  have hdir := keyFile.probe_plugin_dir.copied_eq_own_iff (defaultPluginDir .release)
  have hfqdn := keyFile.engine_fqdn.copied_eq_own_iff defaultEngineFQDN
  rw [ne_eq, errorAtTransportProto_eq_none, Bool.not_eq_false] at hproto
  rw [ne_eq, errorAtEnginePort_eq_none, Bool.not_eq_false] at hport
  constructor
  · intro hapart
    refine ⟨?_, hproto.mp hapart.transportProto, hfqdn.mp hapart.engineFQDN,
      hport.mp hapart.enginePort⟩
    rintro rfl
    exact hdir.mp (hapart.probePluginDir rfl)
  · intro hreads
    refine ⟨?_, hproto.mpr hreads.transport_proto, ?_, hfqdn.mpr hreads.engine_fqdn,
      hport.mpr hreads.engine_port⟩
    · rintro rfl
      exact hdir.mpr (hreads.probe_plugin_dir rfl)
    · simp only [KeyFile.loadedConf, IntegerValue.used_eq, if_true]

/-- The fields of the unit tests' key file are apart. -/
theorem fields_apart_iff_complete :
    ∃ result, loadConf .release (ascii "complete.conf") (.ok completeKeyFile) CONF_INITIALIZER =
        some result ∧
      FieldsApart .release completeKeyFile result.conf := by
  refine ⟨_, rfl, (fields_apart_iff rfl rfl).mpr ⟨?_, ?_, ?_, ?_⟩⟩
  · intro _ value message h
    cases h
  · intro h
    cases h
  · intro value message h
    cases h
  · intro h
    cases h

/-- A key file whose token has an invalid escape sequence and whose protocol is UDP. -/
def badTokenKeyFile : KeyFile :=
  { completeKeyFile with
    token := .invalidEscape (ascii "abcd\\1234") (ascii "invalid escape sequence")
    transport_proto := .value 1 }

/-- The error of the token is still set when the protocol is read, so the protocol becomes the
default. -/
theorem token_error_resets_protocol :
    ∃ result, loadConf .release (ascii "probe.conf") (.ok badTokenKeyFile) CONF_INITIALIZER =
        some result ∧
      result.status = exitSuccess ∧ badTokenKeyFile.transport_proto = .value 1 ∧
      result.conf.transportProto = 0 ∧ ¬ FieldsApart .release badTokenKeyFile result.conf := by
  refine ⟨_, rfl, rfl, rfl, rfl, ?_⟩
  intro hapart
  have hproto := hapart.transportProto
  revert hproto
  decide

end AlertProbe
