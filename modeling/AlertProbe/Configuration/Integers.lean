import AlertProbe.Configuration.Fields
import AlertProbe.Configuration.Strings

/-!
# Integers of the configuration

GLib reads integers of 32 bits, and `loadConf` assigns them to fields of 8, 16 and 32
bits without looking at their size.  The identifier survives, because it is printed as
an `int` again; a protocol, version or port out of its field's range becomes another one.

Main results:

- Theorem `toUnsignedChar_toNat` and `toUnsignedShort_toNat`: what the conversions keep.
- Theorem `renders_iff`: the numbers that an element of the SD-Element queue shows.
- Theorem `portUsed_iff`: the port that `sendMessage` uses.
- Theorem `integers_as_written_iff`: the key files whose integers are used as written.
- Theorem `large_port_wraps`: a port and a protocol that silently become others.
-/

namespace AlertProbe

open Foundations

/-! ## Conversions -/

/-- A 32-bit integer and its unsigned reading differ by a multiple of `2 ^ 32`. -/
theorem toUInt32_toNat (z : Int32) : (z.toUInt32.toNat : Int) = z.toInt % 2 ^ 32 := by
  have hbits : z.toInt = z.toBitVec.toInt := rfl
  have hnat : z.toUInt32.toNat = z.toBitVec.toNat := rfl
  have hlt := z.toBitVec.isLt
  rw [hbits, hnat, BitVec.toInt_eq_toNat_cond]
  split <;> omega

/-- `unsigned char` keeps an integer modulo 256. -/
theorem toUnsignedChar_toNat (z : Int32) : ((toUnsignedChar z).toNat : Int) = z.toInt % 256 := by
  have hmod := toUInt32_toNat z
  rw [toUnsignedChar, UInt32.toNat_toUInt8]
  omega

/-- `unsigned short` keeps an integer modulo 65536. -/
theorem toUnsignedShort_toNat (z : Int32) :
    ((toUnsignedShort z).toNat : Int) = z.toInt % 65536 := by
  have hmod := toUInt32_toNat z
  rw [toUnsignedShort, UInt32.toNat_toUInt16]
  omega

/-! ## Uses -/

/-- An element of the SD-Element queue shows the version and the identifier. -/
def Renders (header : SDElementHeader) (version probe : Int) : Prop :=
  ∃ rest, afterMsgIDText header =
    ascii "[prop@40311 ver=" ++ (decimal version ++ (ascii " probe=" ++ (decimal probe ++
      (ascii " token=\"" ++ rest))))

/-- Two printed integers in front of texts that start with a blank are equal only if the
integers are. -/
theorem decimal_append_inj {z z' : Int} {rest rest' : CString} (hrest : Delimited rest)
    (hrest' : Delimited rest') (h : decimal z ++ rest = decimal z' ++ rest') :
    z = z' ∧ rest = rest' := by
  have hscan := integer_decimal z hrest
  rw [h, integer_decimal z' hrest', Option.some.injEq, Prod.mk.injEq] at hscan
  exact ⟨hscan.1.symm, hscan.2.symm⟩

/-- The numbers shown are those of the header, the identifier as an `int`. -/
theorem renders_iff {header : SDElementHeader} {version probe : Int} :
    Renders header version probe ↔
      (header.transportMsgVersion.toNat : Int) = version ∧
        header.probeID.toInt32.toInt = probe := by
  have htext : afterMsgIDText header =
      ascii "[prop@40311 ver=" ++ (decimal header.transportMsgVersion.toNat ++
        (ascii " probe=" ++ (decimal header.probeID.toInt32.toInt ++ (ascii " token=\"" ++
          (header.token ++ ascii "\"][res1@40311 offset="))))) := by
    simp only [afterMsgIDText, List.append_assoc]
  have hprobe : ∀ rest, Delimited (ascii " probe=" ++ rest) := by
    intro rest
    exact (delimited_cons _ _).mpr rfl
  have htoken : ∀ rest, Delimited (ascii " token=\"" ++ rest) := by
    intro rest
    exact (delimited_cons _ _).mpr rfl
  rw [Renders, htext]
  constructor
  · intro h
    obtain ⟨rest, hrest⟩ := h
    obtain ⟨hversion, htail⟩ :=
      decimal_append_inj (hprobe _) (hprobe _) (List.append_cancel_left hrest)
    obtain ⟨hprobe, _⟩ :=
      decimal_append_inj (htoken _) (htoken _) (List.append_cancel_left htail)
    exact ⟨hversion, hprobe⟩
  · intro h
    obtain ⟨rfl, rfl⟩ := h
    exact ⟨_, rfl⟩

/-- Every call of `sendMessage` that names a port names the given one. -/
def PortUsed (params : SenderParams) (port : Int) : Prop :=
  ∀ glib element msgID env result, sendMessage glib params element msgID env = some result →
    ∀ call ∈ result.calls, ∀ used, call.port = some used → (used.toNat : Int) = port

/-- Some call of `sendMessage` names the configured port. -/
theorem exists_port {params : SenderParams}
    (huri : ∃ uri, strcat 265 (ascii "simple://") params.address = some uri) :
    ∃ glib element msgID env result,
      sendMessage glib params element msgID env = some result ∧
        ∃ call ∈ result.calls, call.port = some params.port := by
  have hoffset : messageOffset (exampleEnv 0).now (renderHeartBeat exampleHeader 0).time =
      some 0 := by
    decide
  obtain ⟨uri, huri⟩ := huri
  refine ⟨exampleGLib, renderHeartBeat exampleHeader 0, 1, exampleEnv 0, ?_⟩
  by_cases hprotocol : params.protocol = 0
  · simp only [sendMessage, hoffset, hprotocol, sendTls, huri, Option.bind_eq_bind,
      Option.bind_some, if_true]
    exact ⟨_, rfl, .connectToUri uri params.port, .head _, rfl⟩
  · simp only [sendMessage, hoffset, hprotocol, Option.bind_eq_bind, Option.bind_some, if_false]
    have hcalls : (sendSocket params
        (completMsg exampleGLib (renderHeartBeat exampleHeader 0) 1 (exampleEnv 0).g_time 0)
        (exampleEnv 0)).calls =
          [.gethostbyname params.address, .socket params.socketType,
            .sendto 3 (completMsg exampleGLib (renderHeartBeat exampleHeader 0) 1
              (exampleEnv 0).g_time 0) params.port, .closesocket 3] := by
      simp [sendSocket, initConnection, endConnection, exampleEnv, hprotocol, INVALID_SOCKET,
        exitSuccess, SenderParams.socketType]
    refine ⟨_, rfl, .sendto 3 (completMsg exampleGLib (renderHeartBeat exampleHeader 0) 1
      (exampleEnv 0).g_time 0) params.port, ?_, rfl⟩
    rw [hcalls]
    exact .tail _ (.tail _ (.head _))

/-- The port that is used is the configured one. -/
theorem portUsed_iff {params : SenderParams} {port : Int}
    (huri : ∃ uri, strcat 265 (ascii "simple://") params.address = some uri) :
    PortUsed params port ↔ (params.port.toNat : Int) = port := by
  constructor
  · intro h
    obtain ⟨glib, element, msgID, env, result, hsend, call, hcall, hport⟩ := exists_port huri
    exact h glib element msgID env result hsend call hcall _ hport
  · intro hport glib element msgID env result hsend call hcall used hused
    obtain ⟨_, _, hpath⟩ := sendMessage_path hsend
    rw [hpath.port call hcall used hused]
    exact hport

/-! ## As written -/

/-- An integer that a key has is the one that is used, or it is out of range and the default is
used, with a warning. -/
def AsWritten (read : IntegerValue) (greatest default : Int) (warned : Prop)
    (UsedAs : Int → Prop) : Prop :=
  ∀ z, read = .value z → UsedAs z.toInt ∨
    (¬ (0 ≤ z.toInt ∧ z.toInt ≤ greatest) ∧ UsedAs default ∧ warned)

/-- The integer of a key can be used as written: it is in range, or an error that is left over
gives it the default and it is that default or out of range. -/
def IntegerValue.fits (read : IntegerValue) (stale : Bool) (greatest default : Int) : Bool :=
  match read with
  | .error _ => true
  | .value z =>
      if stale then z.toInt == default || !decide (0 ≤ z.toInt ∧ z.toInt ≤ greatest)
      else decide (0 ≤ z.toInt ∧ z.toInt ≤ greatest)

/-- With an error left over the default is used with a warning; without one the integer is used
modulo the size of its field, and nothing is logged. -/
theorem asWritten_iff {read : IntegerValue} {stale : Bool} {greatest default actual : Int}
    {warned : Prop} {UsedAs : Int → Prop} (hgreatest : 0 ≤ greatest)
    (hused : ∀ v, UsedAs v ↔ actual = v)
    (hactual : ∀ z, read = .value z →
      actual = if stale then default else z.toInt % (greatest + 1))
    (hwarned : ∀ z, read = .value z → (warned ↔ stale = true)) :
    AsWritten read greatest default warned UsedAs ↔ read.fits stale greatest default = true := by
  cases read with
  | error message =>
      refine iff_of_true ?_ rfl
      intro z hz
      cases hz
  | value z =>
      have hactual := hactual z rfl
      have hwarned := hwarned z rfl
      have hone : AsWritten (.value z) greatest default warned UsedAs ↔
          (actual = z.toInt ∨
            (¬ (0 ≤ z.toInt ∧ z.toInt ≤ greatest) ∧ actual = default ∧ stale = true)) := by
        simp only [AsWritten, IntegerValue.value.injEq, forall_eq', hused, hwarned]
      rw [hone]
      cases stale with
      | true =>
          simp only [if_true] at hactual
          simp only [IntegerValue.fits, hactual, if_true, and_true, Bool.or_eq_true, beq_iff_eq,
            Bool.not_eq_true', decide_eq_false_iff_not]
          exact or_congr_left eq_comm
      | false =>
          simp only [Bool.false_eq_true, if_false] at hactual
          simp only [IntegerValue.fits, hactual, Bool.false_eq_true, if_false, and_false, or_false,
            decide_eq_true_eq]
          constructor
          · intro hmod
            have hnonneg := Int.emod_nonneg z.toInt (by omega : greatest + 1 ≠ 0)
            have hlt := Int.emod_lt_of_pos z.toInt (by omega : 0 < greatest + 1)
            omega
          · intro hrange
            exact Int.emod_eq_of_lt hrange.1 (by omega)

/-! ## Warnings -/

/-- A warning was logged while a key was read. -/
def LoadResult.Warned (result : LoadResult) (key : Key) : Prop :=
  ∃ entry ∈ result.logs, entry.level = .warning ∧ entry.key = some key

/-- An integer read warns of its own key, and only with an error set. -/
theorem IntegerValue.warnings_iff {read : IntegerValue} {confPath : CString} {key key' : Key}
    {error : GError} :
    (∃ entry ∈ read.warnings confPath key error,
      entry.level = .warning ∧ entry.key = some key') ↔
        key = key' ∧ (getInteger read error).2 ≠ none := by
  unfold IntegerValue.warnings
  cases (getInteger read error).2 with
  | none => simp
  | some message => simp

/-- A string read warns of its own key, and only without a string. -/
theorem StringValue.warnings_iff {read : StringValue} {confPath : CString} {key key' : Key}
    {error : GError} :
    (∃ entry ∈ read.warnings confPath key error,
      entry.level = .warning ∧ entry.key = some key') ↔ key = key' ∧ read.isMissing = true := by
  cases read with
  | text value => simp [warnings, isMissing]
  | invalidEscape value message => simp [warnings, isMissing]
  | missing message => simp [warnings, isMissing]

/-- The keys that a successful call warns of. -/
theorem warned_iff {keyFile : KeyFile} {confPath : CString} {result : LoadResult} {key : Key}
    (hlogs : result.logs = keyFile.loadedLogs confPath) :
    result.Warned key ↔
      ((((.probe_plugin_dir = key ∧ keyFile.probe_plugin_dir.isMissing = true) ∨
        (.transport_proto = key ∧
          (getInteger keyFile.transport_proto keyFile.errorAtTransportProto).2 ≠ none)) ∨
        (.transport_message_version = key ∧
          (getInteger keyFile.transport_message_version none).2 ≠ none)) ∨
        (.engine_fqdn = key ∧ keyFile.engine_fqdn.isMissing = true)) ∨
        (.engine_port = key ∧
          (getInteger keyFile.engine_port keyFile.errorAtEnginePort).2 ≠ none) := by
  rw [LoadResult.Warned, hlogs, KeyFile.loadedLogs]
  simp only [List.mem_append, or_and_right, exists_or, IntegerValue.warnings_iff,
    StringValue.warnings_iff]

/-! ## The four integers -/

/-- The integers of a key file are used as written by the threads that `main` starts: in the
texts of the messages, in the protocol that `sendMessage` tests and in the port of the connections
that it asks for. -/
structure IntegersAsWritten (keyFile : KeyFile) (result : LoadResult) (started : Started) :
    Prop where
  probe_id : ∀ z, keyFile.probe_id = .value z →
    ∃ version, Renders started.sdElementQueue version z.toInt
  transport_message_version :
    AsWritten keyFile.transport_message_version 255 2 (result.Warned .transport_message_version)
      fun used => ∃ probe, Renders started.sdElementQueue used probe
  transport_proto :
    AsWritten keyFile.transport_proto 255 0 (result.Warned .transport_proto)
      fun used => (started.senderParams.protocol.toNat : Int) = used
  engine_port :
    AsWritten keyFile.engine_port 65535 443 (result.Warned .engine_port)
      (PortUsed started.senderParams)

/-- The integers of a key file fit into their fields. -/
def KeyFile.integersFit (keyFile : KeyFile) : Bool :=
  keyFile.transport_message_version.fits false 255 2 &&
    keyFile.transport_proto.fits keyFile.staleAtTransportProto 255 0 &&
      keyFile.engine_port.fits keyFile.staleAtEnginePort 65535 443

/-- The version that is used is the one of the key file when that fits. -/
theorem version_asWritten_iff {build : Build} {confPath : CString} {keyFile : KeyFile}
    {probeID : Int32} {token : CString} {result : LoadResult} {header : SDElementHeader}
    (hlogs : result.logs = keyFile.loadedLogs confPath)
    (hversion : header.transportMsgVersion =
      (keyFile.loadedConf build probeID token).transportMsgVersion) :
    AsWritten keyFile.transport_message_version 255 2 (result.Warned .transport_message_version)
        (fun used => ∃ probe, Renders header used probe) ↔
      keyFile.transport_message_version.fits false 255 2 = true := by
  apply asWritten_iff (by decide)
  · intro used
    simp only [renders_iff, exists_and_left, exists_eq', and_true]
    exact Iff.rfl
  · intro z hz
    rw [hversion, KeyFile.loadedConf, hz]
    exact toUnsignedChar_toNat z
  · intro z hz
    simp [warned_iff hlogs, hz, getInteger]

/-- The protocol that is used is the one of the key file when that fits. -/
theorem proto_asWritten_iff {build : Build} {confPath : CString} {keyFile : KeyFile}
    {probeID : Int32} {token : CString} {result : LoadResult} {protocol : UInt8}
    (hlogs : result.logs = keyFile.loadedLogs confPath)
    (hprotocol : protocol = (keyFile.loadedConf build probeID token).transportProto) :
    AsWritten keyFile.transport_proto 255 0 (result.Warned .transport_proto)
        (fun used => (protocol.toNat : Int) = used) ↔
      keyFile.transport_proto.fits keyFile.staleAtTransportProto 255 0 = true := by
  have hstale := errorAtTransportProto_eq_none keyFile
  apply asWritten_iff (by decide) (fun _ => Iff.rfl)
  · intro z hz
    simp only [hprotocol, KeyFile.loadedConf, IntegerValue.used_eq, hz, IntegerValue.own, hstale]
    cases keyFile.staleAtTransportProto with
    | true => rfl
    | false => exact toUnsignedChar_toNat z
  · intro z hz
    simp [warned_iff hlogs, hz, getInteger, hstale]

/-- The port that is used is the one of the key file when that fits. -/
theorem port_asWritten_iff {build : Build} {confPath : CString} {keyFile : KeyFile}
    {probeID : Int32} {token : CString} {result : LoadResult} {params : SenderParams}
    (hlogs : result.logs = keyFile.loadedLogs confPath)
    (hport : params.port = (keyFile.loadedConf build probeID token).enginePort)
    (huri : ∃ uri, strcat 265 (ascii "simple://") params.address = some uri) :
    AsWritten keyFile.engine_port 65535 443 (result.Warned .engine_port) (PortUsed params) ↔
      keyFile.engine_port.fits keyFile.staleAtEnginePort 65535 443 = true := by
  have hstale := errorAtEnginePort_eq_none keyFile
  apply asWritten_iff (by decide) (fun _ => portUsed_iff huri)
  · intro z hz
    simp only [hport, KeyFile.loadedConf, IntegerValue.used_eq, hz, IntegerValue.own, hstale]
    cases keyFile.staleAtEnginePort with
    | true => rfl
    | false => exact toUnsignedShort_toNat z
  · intro z hz
    simp [warned_iff hlogs, hz, getInteger, hstale]

/-- For every key file that is loaded: the threads that `main` starts use its four integers as
written exactly when they fit into their fields. -/
theorem integers_as_written_iff {build : Build} {confPath : CString} {keyFile : KeyFile}
    {conf : Conf} {result : LoadResult} {started : Started}
    (hload : loadConf build confPath (.ok keyFile) conf = some result)
    (hstarted : StartedWith build result started) :
    IntegersAsWritten keyFile result started ↔ keyFile.integersFit = true := by
  obtain ⟨probeID, token, hid, _, _, hconf, hlogs, _, _, hprobeID, hversion, hsender⟩ :=
    started_of_loaded hload hstarted
  have huri := uri_of_loaded hload hstarted
  rw [hconf] at hprobeID hversion hsender
  have hport : started.senderParams.port =
      (keyFile.loadedConf build probeID token).enginePort := by
    rw [hsender]
  have hprotocol : started.senderParams.protocol =
      (keyFile.loadedConf build probeID token).transportProto := by
    rw [hsender]
  have hversionFits := version_asWritten_iff hlogs hversion
  have hprotoFits := proto_asWritten_iff hlogs hprotocol
  have hportFits := port_asWritten_iff hlogs hport huri
  simp only [KeyFile.integersFit, Bool.and_eq_true]
  constructor
  · intro hwritten
    exact ⟨⟨hversionFits.mp hwritten.transport_message_version,
      hprotoFits.mp hwritten.transport_proto⟩, hportFits.mp hwritten.engine_port⟩
  · intro hfit
    refine ⟨?_, hversionFits.mpr hfit.1.1, hprotoFits.mpr hfit.1.2, hportFits.mpr hfit.2⟩
    -- The identifier is stored as an `unsigned int` and printed as an `int` again.
    intro z hz
    rw [hid, IntegerValue.value.injEq] at hz
    refine ⟨_, renders_iff.mpr ⟨rfl, ?_⟩⟩
    rw [hprobeID, KeyFile.loadedConf, ← hz, Int32.toInt32_toUInt32]

/-- Some run of `main` starts the threads with a configuration that was loaded. -/
theorem exists_started (result : LoadResult) (hsuccess : result.status = exitSuccess) :
    ∃ started, StartedWith .release result started ∧
      started.senderParams =
        ⟨result.conf.engineFQDN, result.conf.enginePort, result.conf.transportProto⟩ := by
  let env := { exampleMainEnv 101 102 with loadConf := some result.conf }
  exact ⟨_, ⟨hsuccess, 1, 100, env, rfl, rfl⟩, rfl⟩

/-- The integers of the unit tests' key file are used as written. -/
theorem integers_as_written_iff_complete :
    ∃ result started,
      loadConf .release (ascii "complete.conf") (.ok completeKeyFile) CONF_INITIALIZER =
        some result ∧
      StartedWith .release result started ∧
      IntegersAsWritten completeKeyFile result started := by
  have hload : loadConf .release (ascii "complete.conf") (.ok completeKeyFile)
      CONF_INITIALIZER = some ⟨exitSuccess, completeKeyFile.loadedConf .release 10
        (ascii "abcdefghijklmo0123456789"), []⟩ := rfl
  obtain ⟨started, hstarted, _⟩ := exists_started ⟨exitSuccess,
    completeKeyFile.loadedConf .release 10 (ascii "abcdefghijklmo0123456789"), []⟩ rfl
  exact ⟨_, started, hload, hstarted, (integers_as_written_iff hload hstarted).mpr rfl⟩

/-- A key file with a protocol of 256 and a port of 65979. -/
def largeKeyFile : KeyFile :=
  { completeKeyFile with transport_proto := .value 256, engine_port := .value 65979 }

/-- They become the protocol 0 and the port 443, and nothing is logged. -/
theorem large_port_wraps :
    ∃ result started,
      loadConf .release (ascii "probe.conf") (.ok largeKeyFile) CONF_INITIALIZER =
        some result ∧
      StartedWith .release result started ∧ result.logs = [] ∧
      started.senderParams.protocol = 0 ∧ started.senderParams.port = 443 ∧
      ¬ IntegersAsWritten largeKeyFile result started := by
  have hload : loadConf .release (ascii "probe.conf") (.ok largeKeyFile) CONF_INITIALIZER =
      some ⟨exitSuccess, largeKeyFile.loadedConf .release 10
        (ascii "abcdefghijklmo0123456789"), []⟩ := rfl
  obtain ⟨started, hstarted, hsender⟩ := exists_started ⟨exitSuccess,
    largeKeyFile.loadedConf .release 10 (ascii "abcdefghijklmo0123456789"), []⟩ rfl
  have hprotocol : started.senderParams.protocol = 0 := by
    rw [hsender]
    rfl
  have hport : started.senderParams.port = 443 := by
    rw [hsender]
    rfl
  refine ⟨_, started, hload, hstarted, rfl, hprotocol, hport, ?_⟩
  intro hwritten
  rcases hwritten.transport_proto 256 rfl with hused | ⟨_, _, entry, hentry, _⟩
  · rw [hprotocol] at hused
    revert hused
    decide
  · exact List.not_mem_nil hentry

end AlertProbe
