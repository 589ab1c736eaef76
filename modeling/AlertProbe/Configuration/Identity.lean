import AlertProbe.Configuration.Installed
import AlertProbe.Wire.Engine

/-!
# From the installer to the engine

The identifier and the token that the installer writes into `probe.conf` go through
`loadConf`, `main`, the SD-Element queue and the messages to the engine, which tells
the probe by them.  The daemon reads the file again whenever it is restarted.

Main results:

- Theorem `serving_goesBy`: what every incarnation goes by.
- Theorem `conf_of_configure`: what `main` has of the file.
- Theorem `sendMessage_addressed`: where messages go.
- Theorem `installed_probe_identified`: what the engine reads.
-/

namespace AlertProbe

open Foundations

/-! ## Incarnations of an installed probe -/

/-- What `main` goes on with after `loadConf`, if every string fits its field. -/
def loadedConfiguration (build : Build) (confPath : CString) (file : Except CString KeyFile) :
    Option (Option Conf) :=
  (loadConf build confPath file CONF_INITIALIZER).map fun result =>
    if result.status = exitSuccess then some result.conf else none

/-- An incarnation reads the file, and its host has a name without blanks. -/
def ReadsFile (build : Build) (confPath : CString) (file : Except CString KeyFile) :
    DaemonAction → Prop
  | .start env =>
      loadedConfiguration build confPath file = some env.loadConf ∧ charByte ' ' ∉ env.hostname
  | .stop _ _ => True

instance (build : Build) (confPath : CString) (file : Except CString KeyFile)
    (a : DaemonAction) : Decidable (ReadsFile build confPath file a) :=
  match a with
  | .start _ => inferInstanceAs (Decidable (_ ∧ _))
  | .stop _ _ => inferInstanceAs (Decidable True)

/-- An incarnation that goes by the given configuration. -/
structure Started.GoesBy (started : Started) (conf : Conf) : Prop where
  hostname : charByte ' ' ∉ started.sdElementQueue.hostname
  appName : started.sdElementQueue.appName = APP_NAME
  probeID : started.sdElementQueue.probeID = conf.probeID
  token : started.sdElementQueue.token = conf.token
  senderParams : started.senderParams = ⟨conf.engineFQDN, conf.enginePort, conf.transportProto⟩

/-- Every incarnation in a run goes by what the file gives. -/
theorem serving_goesBy {build : Build} {confPath : CString} {file : Except CString KeyFile}
    {argc : Nat} {pid : Int32} {started : Started}
    (h : ((daemon build argc pid).restrict fun _ a =>
      ReadsFile build confPath file a).Reachable (.serving started)) :
    ∃ conf, loadedConfiguration build confPath file = some (some conf) ∧
      started.GoesBy conf := by
  have hall : ∀ served, DaemonState.serving started = .serving served →
      ∃ conf, loadedConfiguration build confPath file = some (some conf) ∧
        served.GoesBy conf := by
    apply h.invariant (P := fun s => ∀ served, s = .serving served →
      ∃ conf, loadedConfiguration build confPath file = some (some conf) ∧ served.GoesBy conf)
    · intro served hserved
      cases hserved
    · intro s a s' _ hstep served hserved
      obtain ⟨hreads, hstep⟩ := Machine.restrict_step_eq_next.mp hstep
      subst hserved
      obtain ⟨entered, env, rfl, rfl, hmain⟩ := daemonStep_serving hstep
      obtain ⟨daemon, conf, _, hconf, rfl⟩ := main_cases hmain
      exact ⟨conf, hreads.1.trans (congrArg some hconf), hreads.2, rfl, rfl, rfl, rfl⟩
  exact hall started rfl

/-! ## Where messages go -/

/-- A call names the host and the port of the engine, as far as it names a host and a port. -/
def TransportCall.AddressedTo (params : SenderParams) : TransportCall → Prop
  | .connectToUri uri port => uri = ascii "simple://" ++ params.address ∧ port = params.port
  | .gethostbyname address => address = params.address
  | .connect _ port => port = params.port
  | .sendto _ _ port => port = params.port
  | .write _ | .unrefConnection | .socket _ | .closesocket _ => True

/-- The calls of `initConnection` name the engine. -/
theorem initConnection_addressed (params : SenderParams) (env : SendEnv) :
    ∀ call ∈ (initConnection params env).calls, call.AddressedTo params := by
  simp only [initConnection]
  generalize (if params.protocol = 1 then SocketType.dgram else SocketType.stream) = type
  split
  · simp [TransportCall.AddressedTo]
  · split
    · simp [TransportCall.AddressedTo]
    · split
      · split <;> simp [TransportCall.AddressedTo]
      · simp [TransportCall.AddressedTo]

/-- The calls of `sendMessage` name the engine. -/
theorem sendMessage_addressed {glib : GLib} {params : SenderParams}
    {element : SDElementQueueElement} {msgID : UInt16} {env : SendEnv} {result : SendResult}
    (h : sendMessage glib params element msgID env = some result) :
    ∀ call ∈ result.calls, call.AddressedTo params := by
  simp only [sendMessage, Option.bind_eq_bind, Option.bind_eq_some_iff] at h
  obtain ⟨offset, -, h⟩ := h
  split at h
  · simp only [sendTls, Option.bind_eq_bind, Option.bind_eq_some_iff] at h
    obtain ⟨uri, huri, h⟩ := h
    obtain ⟨huri, -⟩ := strcat_eq_some.mp huri
    split at h
    · cases h
      simp [TransportCall.AddressedTo, huri]
    · split at h <;> cases h <;> simp [TransportCall.AddressedTo, huri]
  · cases h
    have hopening := initConnection_addressed params env
    have hclosing : ∀ call ∈ (endConnection env).calls, call.AddressedTo params := by
      unfold endConnection
      split <;> simp [TransportCall.AddressedTo]
    simp only [sendSocket]
    split
    · exact hopening
    · have hsending : ∀ call ∈ (initConnection params env).calls ++
          [.sendto env.sock (completMsg glib element msgID env.g_time offset) params.port],
          call.AddressedTo params := by
        simp only [List.forall_mem_append, List.forall_mem_singleton]
        exact ⟨hopening, rfl⟩
      split
      · exact hsending
      · split <;> exact List.forall_mem_append.mpr ⟨hsending, hclosing⟩

/-! ## What the engine is told -/

section

variable {reader : GKeyFile} (hreader : reader.Documented) {s : Settings} {text : CString}
  (htext : ∀ line ∈ linesOf newline text, reader.Configurable line) {entries : List KeyFileEntry}
  (hread : reader.entries text = some entries)
  (hid : s.PROBE_ID < 2 ^ 31)
  (hidKey : (lookupEntry entries (ascii "probe") (ascii "probe_id")).isSome)
  (htokenKey : (lookupEntry entries (ascii "probe") (ascii "token")).isSome)

include hreader htext hread hid hidKey htokenKey

/-- What `main` has of the file that the installer leaves: the identifier and the token that it
wrote, and the rest of the file before. -/
theorem conf_of_configure {build : Build} {confPath : CString} {conf : Conf}
    (h : loadedConfiguration build confPath (reader.load (configure s text)) =
      some (some conf)) :
    conf = (s.written (reader.keyFile (reader.groups text) entries)).loadedConf
      build (Int32.ofNat s.PROBE_ID) s.TOKEN := by
  rw [loadedConfiguration, load_configure hreader htext hread hid hidKey htokenKey,
    Option.map_eq_some_iff] at h
  obtain ⟨result, hload, hconf⟩ := h
  split at hconf
  · rename_i hstatus
    obtain ⟨probeID, token, hprobeID, htoken, -, -, -, rfl⟩ :=
      loadConf_eq_some.mp ⟨hload, hstatus⟩
    rw [Option.some.injEq] at hconf
    cases hprobeID
    cases htoken
    exact hconf.symm
  · cases hconf

/-- Whatever `probe.conf` held before, in every incarnation of every run of the daemon, every
message that is offered to the transport whole, and so every message that the engine reads, has
the identifier and the token that the installer wrote, and is a heartbeat or has the data of a
reading that was collected; and everything goes to the engine that the file names. -/
theorem installed_probe_identified {build : Build} {confPath : CString} {argc : Nat} {pid : Int32}
    {started : Started}
    (hserving : ((daemon build argc pid).restrict fun _ a =>
      ReadsFile build confPath (reader.load (configure s text)) a).Reachable (.serving started))
    {glib : GLib} (hglib : glib.Documented) {x : State}
    (hx : (probe ⟨glib, started.sdElementQueue, started.senderParams⟩).Reachable x)
    {conf : Conf}
    (hconf : conf = (s.written (reader.keyFile (reader.groups text)
      entries)).loadedConf build (Int32.ofNat s.PROBE_ID) s.TOKEN) :
    (∀ message ∈ x.history.offered,
      message.probeID = UInt32.ofNat s.PROBE_ID ∧ message.token = s.TOKEN ∧
        (message.data = none ∨ ∃ e ∈ x.history.pushed, message.data = some (dataOf e))) ∧
    x.history.read ⊆ x.history.offered ∧
    ∀ handed ∈ x.history.handed, ∀ call ∈ handed.result.calls,
      call.AddressedTo ⟨conf.engineFQDN, conf.enginePort, conf.transportProto⟩ := by
  obtain ⟨loaded, hloaded, hgoes⟩ := serving_goesBy hserving
  have hsame : loaded = conf :=
    (conf_of_configure hreader htext hread hid hidKey htokenKey hloaded).trans hconf.symm
  subst hsame
  have hprobeID : started.sdElementQueue.probeID = UInt32.ofNat s.PROBE_ID := by
    rw [hgoes.probeID, hconf]
    exact Int32.toUInt32_ofNat'
  have htoken : started.sdElementQueue.token = s.TOKEN := by
    rw [hgoes.token, hconf]
    rfl
  have hheader : started.sdElementQueue.Readable := by
    refine ⟨hgoes.hostname, ?_, ?_⟩
    · rw [hgoes.appName]
      decide
    · rw [htoken]
      intro hmem
      exact absurd (s.token_plain _ hmem) (by decide)
  refine ⟨?_, read_subset_offered hglib hheader hx, ?_⟩
  · intro message hmessage
    obtain ⟨handed, hmem, hhanded⟩ := List.mem_filterMap.mp hmessage
    obtain ⟨offset, -, hiff⟩ := offered_iff hglib hheader hx hmem
    have heq := ((hiff message).mp hhanded).2.2
    rw [heq]
    refine ⟨hprobeID, htoken, ?_⟩
    cases hdata : handed.element.data with
    | none => exact Or.inl rfl
    | some data =>
        -- the data of a hand-over are those of one of the readings
        have hin : data ∈ x.history.handed.filterMap (fun handed => handed.element.data) :=
          List.mem_filterMap.mpr ⟨handed, hmem, hdata⟩
        obtain ⟨e, he, rfl⟩ := List.mem_map.mp ((handed_data_initial hglib hx).subset hin)
        exact Or.inr ⟨e, he, rfl⟩
  · intro handed hmem call hcall
    have haddressed := sendMessage_addressed (sendMessage_of_handed hx handed hmem) call hcall
    rw [← hgoes.senderParams]
    exact haddressed

end

/-- Every call succeeds, and the installed file is read. -/
def installedEnv : MainEnv :=
  { exampleMainEnv 101 102 with loadConf := some exampleConf }

/-- What the installed probe serves with, behind a restart. -/
def installedStarted : Started where
  logPId := 102
  sdElementQueue := ⟨ascii "127.0.0.1", APP_NAME, ascii "abcd1234", 35, 3, 102⟩
  senderParams := ⟨ascii "localhost", 443, 0⟩
  pid := 102
  pidFile := some 102

/-- The daemon, which reads the installed file whenever it is started. -/
def installedDaemon : Machine DaemonState DaemonAction :=
  (daemon .release 1 100).restrict fun _ a =>
    ReadsFile .release (ascii "probe.conf")
      (exampleReader.load (configure exampleSettings exampleConfText)) a

/-- The probe is installed, started and restarted, and sends a reading. -/
theorem installed_probe_identified_run :
    ∃ (x : State) (message : Message), x.history.read = [message] ∧
      message.probeID = 35 ∧ message.token = ascii "abcd1234" := by
  have hserving : installedDaemon.run installedDaemon.initial
      [.start installedEnv, .stop SIGHUP [true], .start installedEnv] =
        .next (.serving installedStarted) := by
    decide +kernel
  have hrun : (probe ⟨exampleGLib, installedStarted.sdElementQueue,
      installedStarted.senderParams⟩).EndsIn State.start
      (List.replicate 3 (Action.addon 0 exampleReading) ++ List.replicate 11 Action.format ++
        List.replicate 12 (Action.sender (writingEnv 100 147)))
      (fun x => x.history.read.length = 1) := by
    decide +kernel
  obtain ⟨x, hx, hread⟩ := Machine.exists_reachable_of_endsIn hrun
  obtain ⟨message, hmessage⟩ := List.length_eq_one_iff.mp hread
  have hmem : message ∈ x.history.read := by
    rw [hmessage]
    exact List.mem_singleton_self message
  obtain ⟨hall, hoffered, -⟩ := installed_probe_identified exampleReader_documented
    configurable_exampleConfText entries_exampleConfText (by decide) (by decide +kernel)
    (by decide +kernel) (Machine.reachableFrom_of_run hserving) exampleGLib_documented hx rfl
  obtain ⟨hprobeID, htoken, -⟩ := hall message (hoffered hmem)
  exact ⟨x, message, hmessage, hprobeID, htoken⟩

end AlertProbe
