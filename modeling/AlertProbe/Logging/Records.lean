import AlertProbe.Model.Log

/-!
# Records of the log

A record takes one line, so the log can be read back line by line: the time, the
host name, the name and the pid of the probe, and the message.  Threads log at the
same time, and nothing keeps their records apart but the buffer that each of them
fills before it writes.  A record is divided where its line is longer than the
buffer; of the newlines behind the line a reader takes no notice.

Main results:

- Theorem `readRecord_append`: a record is read back in front of more text.
- Theorem `readLog_append`: so is the log, record by record.
- Theorem `readRecord_eq_none`: a record without the end of its line is not read.
- Theorem `log_whole_iff`: when the log consists of whole records, whatever the
  order in which the threads go on.
-/

namespace AlertProbe

open Foundations

/-! ## Reading the log -/

/-- What a record says. -/
structure LogRecord where
  dateTime : CString
  hostname : CString
  appName : CString
  pId : Int32
  message : CString
deriving DecidableEq, Repr

/-- Read the record at the start of a text. -/
def readRecord (text : CString) : Option LogRecord := do
  let (dateTime, text) ← field blank text
  let (hostname, text) ← field blank text
  let (appName, text) ← field blank text
  let (pId, text) ← integer text
  let text ← literal (ascii " - ") text
  let (message, _) ← field newline text
  some ⟨dateTime, hostname, appName, Int32.ofInt pId, message⟩

/-- Read a record from every line, except for empty ones. -/
def readLog (text : CString) : Option (List LogRecord) :=
  ((textLines newline text).filter (· ≠ [newline])).mapM readRecord

/-- The message without the newlines at its end, of which the log has one more. -/
def messageLine (message : CString) : CString :=
  message.rdropWhile (· == newline)

/-- The record of a message. -/
def LogParams.record (logParams : LogParams) (dateTime message : CString) : LogRecord :=
  ⟨dateTime, logParams.hostname, logParams.appName, logParams.pId, messageLine message⟩

/-- The records of a call: its message on the output that the build logs to, or on the console
behind the reason why the file could not be opened. -/
def LogCall.records (build : Build) (logParams : LogParams) (call : LogCall) :
    List (LogOutput × LogRecord) :=
  match build, call.fopenError with
  | .debug, _ => [(.console, logParams.record call.dateTime call.message)]
  | .release, none => [(.logFile, logParams.record call.dateTime call.message)]
  | .release, some error =>
      [(.console, logParams.record call.dateTime (errorMsg logParams error)),
        (.console, logParams.record call.laterDateTime call.message)]

/-- Newlines in front of the log are not read. -/
theorem readLog_newlines (n : Nat) (rest : CString) :
    readLog (List.replicate n newline ++ rest) = readLog rest := by
  induction n with
  | zero => rfl
  | succ n ih =>
      rw [List.replicate_succ, List.cons_append, readLog, textLines, if_pos rfl,
        List.filter_cons_of_neg (by simp), ← readLog, ih]

/-- A record is read up to the end of a line. -/
theorem newline_mem_of_readRecord {text : CString} {record : LogRecord}
    (h : readRecord text = some record) : newline ∈ text := by
  simp only [readRecord, Option.bind_eq_bind, Option.bind_eq_some_iff] at h
  obtain ⟨⟨dateTime, rest₁⟩, h₁, ⟨hostname, rest₂⟩, h₂, ⟨appName, rest₃⟩, h₃, ⟨pId, rest₄⟩, h₄,
    rest₅, h₅, ⟨message, rest₆⟩, h₆, -⟩ := h
  have hline : newline ∈ rest₅ := by
    rw [eq_of_field h₆]
    exact List.mem_append_right _ List.mem_cons_self
  have hsuffix : rest₅ <:+ text :=
    (suffix_of_literal h₅).trans ((suffix_of_integer h₄).trans ((suffix_of_field h₃).trans
      ((suffix_of_field h₂).trans (suffix_of_field h₁))))
  exact hsuffix.subset hline

/-- A text without the end of a line holds no record. -/
theorem readRecord_eq_none {text : CString} (h : newline ∉ text) : readRecord text = none := by
  cases hrecord : readRecord text with
  | none => rfl
  | some record => exact absurd (newline_mem_of_readRecord hrecord) h

/-- A log that begins with a line which is not ended is not read. -/
theorem readLog_eq_none {text : CString} (hne : text ≠ []) (h : newline ∉ text) :
    readLog text = none := by
  have hline : text ≠ [newline] := by
    rintro rfl
    exact h List.mem_cons_self
  have hlines : textLines newline text = [text] := by
    clear hline
    induction text with
    | nil => exact absurd rfl hne
    | cons b rest ih =>
        have hb : b ≠ newline := fun hb => h (hb ▸ List.mem_cons_self)
        have hrest : newline ∉ rest := fun hmem => h (List.mem_cons_of_mem b hmem)
        rw [textLines, if_neg hb]
        by_cases hnil : rest = []
        · rw [hnil]
          rfl
        · rw [ih hnil hrest]
  rw [readLog, hlines, List.filter_cons_of_pos (by simpa using hline), List.mapM_cons,
    readRecord_eq_none h]
  rfl

/-! ## What can be read -/

/-- A text without blanks and newlines. -/
def Word (text : CString) : Prop :=
  blank ∉ text ∧ newline ∉ text

instance (text : CString) : Decidable (Word text) :=
  inferInstanceAs (Decidable (_ ∧ _))

/-- A message of one line, which may end with newlines. -/
def OneLine (message : CString) : Prop :=
  newline ∉ messageLine message

instance (message : CString) : Decidable (OneLine message) :=
  inferInstanceAs (Decidable (_ ∉ _))

/-- The names are words, and the path of the log is on one line. -/
structure LogParams.Readable (logParams : LogParams) : Prop where
  hostname : Word logParams.hostname
  appName : Word logParams.appName
  logFilePath : newline ∉ logParams.logFilePath

/-- The message is one line; times are words, and reasons are on one line. -/
structure LogCall.Readable (call : LogCall) : Prop where
  message : OneLine call.message
  dateTime : Word call.dateTime
  laterDateTime : Word call.laterDateTime
  fopenError : ∀ error ∈ call.fopenError, newline ∉ error

/-- A text without newlines is one line. -/
theorem oneLine_of_notMem {message : CString} (h : newline ∉ message) : OneLine message :=
  fun hmem => h ((List.rdropWhile_prefix _ _).subset hmem)

/-- The reason why the file could not be opened is one line. -/
theorem oneLine_errorMsg {logParams : LogParams} (hparams : logParams.Readable)
    {error : CString} (h : newline ∉ error) : OneLine (errorMsg logParams error) := by
  apply oneLine_of_notMem
  have hopening : newline ∉ ascii "Error opening file " := by decide
  have hcolon : newline ∉ ascii ": " := by decide
  simp [errorMsg, hopening, hcolon, hparams.logFilePath, h]

/-- The newlines at the end of a message. -/
theorem exists_messageLine (message : CString) :
    ∃ n, message = messageLine message ++ List.replicate n newline := by
  refine ⟨(message.rtakeWhile (· == newline)).length, ?_⟩
  have hend : message.rtakeWhile (· == newline) =
      List.replicate (message.rtakeWhile (· == newline)).length newline := by
    apply List.eq_replicate_of_mem
    intro b hb
    simpa using List.mem_rtakeWhile_imp hb
  rw [← hend, messageLine, List.rdropWhile_append_rtakeWhile]

/-! ## Records -/

/-- What a record has in front of its message. -/
def recordStart (logParams : LogParams) (dateTime : CString) : CString :=
  dateTime ++ ascii " " ++ logParams.hostname ++ ascii " " ++ logParams.appName ++
    ascii " " ++ decimal logParams.pId.toInt ++ ascii " - "

/-- Digits and a minus sign only. -/
theorem newline_notMem_decimal (z : Int) : newline ∉ decimal z := by
  have hnewline : isDigit newline = false := by decide
  have hdigits : newline ∉ decimalNat z.natAbs := by
    intro hmem
    rw [isDigit_of_mem_decimalNat hmem] at hnewline
    cases hnewline
  have hminus : newline ∉ ascii "-" := by decide
  unfold decimal
  split
  · simp [hminus, hdigits]
  · exact hdigits

/-- The line of a record, with its newline. -/
def recordLine (logParams : LogParams) (dateTime message : CString) : CString :=
  recordText logParams dateTime (messageLine message)

/-- What a record has behind its line are newlines. -/
theorem recordText_eq_append (logParams : LogParams) (dateTime message : CString) :
    ∃ n, recordText logParams dateTime message =
      recordLine logParams dateTime message ++ List.replicate n newline := by
  obtain ⟨n, hmessage⟩ := exists_messageLine message
  refine ⟨n, ?_⟩
  have hend : List.replicate n newline ++ ascii "\n" = ascii "\n" ++ List.replicate n newline := by
    have hnewline : ascii "\n" = List.replicate 1 newline := rfl
    rw [hnewline, List.replicate_append_replicate, List.replicate_append_replicate, Nat.add_comm]
  nth_rewrite 1 [hmessage]
  simp only [recordText, recordLine, List.append_assoc, hend]

/-- The line consists of what a record has in front of its message, and of that of the message. -/
theorem recordLine_eq (logParams : LogParams) (dateTime message : CString) :
    recordLine logParams dateTime message =
      recordStart logParams dateTime ++ messageLine message ++ [newline] :=
  rfl

/-- The text of a record with the line of its message. -/
theorem recordText_eq (logParams : LogParams) (dateTime message : CString) :
    ∃ n, recordText logParams dateTime message =
      recordStart logParams dateTime ++
        (messageLine message ++ newline :: List.replicate n newline) := by
  obtain ⟨n, htext⟩ := recordText_eq_append logParams dateTime message
  refine ⟨n, ?_⟩
  rw [htext, recordLine_eq]
  simp only [List.append_assoc, List.cons_append, List.nil_append]

section

variable {logParams : LogParams} (hparams : logParams.Readable)

include hparams

/-- There is one newline in front of the message at most. -/
theorem newline_notMem_recordStart {dateTime : CString} (hdateTime : Word dateTime) :
    newline ∉ recordStart logParams dateTime := by
  have hblank : newline ∉ ascii " " := by decide
  have hdash : newline ∉ ascii " - " := by decide
  simp [recordStart, hblank, hdash, hdateTime.2, hparams.hostname.2, hparams.appName.2,
    newline_notMem_decimal]

/-- A record is read back in front of more text. -/
theorem readRecord_append {dateTime line : CString} (hdateTime : Word dateTime)
    (hline : newline ∉ line) (rest : CString) :
    readRecord (recordStart logParams dateTime ++ (line ++ newline :: rest)) =
      some ⟨dateTime, logParams.hostname, logParams.appName, logParams.pId, line⟩ := by
  have hblank : ascii " " = [blank] := rfl
  have hdelimited : Delimited (ascii " - " ++ (line ++ newline :: rest)) := by
    intro b hb
    cases hb
    rfl
  simp only [readRecord, recordStart, hblank, List.append_assoc, List.cons_append,
    List.nil_append, field_append hdateTime.1, field_append hparams.hostname.1,
    field_append hparams.appName.1, integer_decimal _ hdelimited, literal_append,
    field_append hline, Option.bind_eq_bind, Option.bind_some, Int32.ofInt_toInt]

/-- The log in front of a text is read back record by record. -/
theorem readLog_append {dateTime message : CString} (hdateTime : Word dateTime)
    (hmessage : OneLine message) (rest : CString) :
    readLog (recordText logParams dateTime message ++ rest) =
      (readLog rest).map (logParams.record dateTime message :: ·) := by
  obtain ⟨n, htext⟩ := recordText_eq logParams dateTime message
  have hline : newline ∉ recordStart logParams dateTime ++ messageLine message := by
    rw [List.mem_append, not_or]
    exact ⟨newline_notMem_recordStart hparams hdateTime, hmessage⟩
  have hread : readRecord (recordStart logParams dateTime ++ messageLine message ++ [newline]) =
      some (logParams.record dateTime message) := by
    rw [List.append_assoc]
    exact readRecord_append hparams hdateTime hmessage []
  have hne : recordStart logParams dateTime ++ messageLine message ++ [newline] ≠ [newline] := by
    have hpos : 0 < (recordStart logParams dateTime).length := by
      simp only [recordStart, List.length_append]
      have hdash : (ascii " - ").length = 3 := rfl
      omega
    intro heq
    have hlength := congrArg List.length heq
    simp only [List.length_append, List.length_singleton] at hlength
    omega
  have hlines : textLines newline (recordText logParams dateTime message ++ rest) =
      (recordStart logParams dateTime ++ messageLine message ++ [newline]) ::
        textLines newline (List.replicate n newline ++ rest) := by
    rw [htext, ← List.append_assoc, List.append_assoc, List.cons_append]
    exact textLines_line hline _
  rw [readLog, hlines, List.filter_cons_of_pos (by simpa using hne), List.mapM_cons, hread,
    ← readLog, readLog_newlines, readLog]
  cases ((textLines newline rest).filter (· ≠ [newline])).mapM readRecord with
  | none => rfl
  | some records => rfl

end

/-! ## Blocks of records -/

/-- The text of a record that can be read, or newlines behind one. -/
inductive RecordBlock (logParams : LogParams) : CString → Prop where
  | record {dateTime message : CString} : Word dateTime → OneLine message →
      RecordBlock logParams (recordText logParams dateTime message)
  | newlines (n : Nat) : RecordBlock logParams (List.replicate n newline)

/-- The record of a message with fewer newlines at its end, or more. -/
theorem messageLine_append (message : CString) (n : Nat) :
    messageLine (messageLine message ++ List.replicate n newline) = messageLine message := by
  have hline : messageLine (messageLine message) = messageLine message :=
    List.rdropWhile_idempotent ..
  induction n with
  | zero => rw [List.replicate_zero, List.append_nil, hline]
  | succ n ih =>
      rw [List.replicate_succ', ← List.append_assoc, messageLine,
        List.rdropWhile_concat_pos _ _ _ (by simp)]
      exact ih

section

variable {logParams : LogParams} (hparams : logParams.Readable)

include hparams

/-- The text of a record is read as the record. -/
theorem readRecord_recordText {dateTime message : CString} (hdateTime : Word dateTime)
    (hmessage : OneLine message) :
    readRecord (recordText logParams dateTime message) =
      some (logParams.record dateTime message) := by
  obtain ⟨n, htext⟩ := recordText_eq logParams dateTime message
  rw [htext, readRecord_append hparams hdateTime hmessage]
  rfl

omit hparams in
/-- Newlines are not read as a record. -/
theorem readRecord_newlines (n : Nat) : readRecord (List.replicate n newline) = none := by
  have hblank : blank ∉ List.replicate n newline := fun hmem =>
    absurd (List.eq_of_mem_replicate hmem) (by decide)
  rw [readRecord, field_eq_none hblank]
  rfl

/-- Blocks of records, one behind the other, are read back. -/
theorem readLog_blocks {blocks : List CString}
    (h : ∀ block ∈ blocks, RecordBlock logParams block) (rest : CString) :
    readLog (blocks.flatten ++ rest) =
      (readLog rest).map (blocks.filterMap readRecord ++ ·) := by
  induction blocks with
  | nil => simp
  | cons block blocks ih =>
      have hrest := ih fun block hblock => h block (List.mem_cons_of_mem _ hblock)
      rw [List.flatten_cons, List.append_assoc]
      cases h block List.mem_cons_self with
      | record hdateTime hmessage =>
          rw [readLog_append hparams hdateTime hmessage, hrest,
            List.filterMap_cons_some (readRecord_recordText hparams hdateTime hmessage),
            Option.map_map]
          rfl
      | newlines n =>
          rw [readLog_newlines, hrest, List.filterMap_cons_none (readRecord_newlines n)]

end

/-! ## What is handed over -/

/-- The record of a block with the output that it goes to. -/
def readBlock (written : LogOutput × CString) : Option (LogOutput × LogRecord) :=
  (readRecord written.2).map fun record => (written.1, record)

/-- The line of the record that the call writes to the log file fits a buffer. -/
def LogCall.Fits (build : Build) (logParams : LogParams) (BUFSIZ : Nat) (call : LogCall) : Prop :=
  build = .release → call.fopenError = none →
    (recordLine logParams call.dateTime call.message).length ≤ BUFSIZ

/-- A record whose line fits is handed over in a first block, which has the line and some of the
newlines behind it, and in blocks of newlines. -/
theorem exists_handedOver {logParams : LogParams} {BUFSIZ : Nat} {dateTime message : CString}
    (hfits : (recordLine logParams dateTime message).length ≤ BUFSIZ) :
    ∃ (m : Nat) (later : List CString),
      handedOver BUFSIZ (.logFile, recordText logParams dateTime message) =
          (LogOutput.logFile, recordText logParams dateTime
            (messageLine message ++ List.replicate m newline)) ::
              later.map (fun block => (LogOutput.logFile, block)) ∧
        ∀ block ∈ later, ∃ m, block = List.replicate m newline := by
  obtain ⟨n, htext⟩ := recordText_eq_append logParams dateTime message
  have hne : recordText logParams dateTime message ≠ [] := by
    intro hnil
    rw [recordText, List.append_eq_nil_iff] at hnil
    exact absurd hnil.2 (by decide)
  obtain ⟨later, hblocks, hlater⟩ := SharedFiles.exists_cons_blocks BUFSIZ hne
  have hfirst : (recordText logParams dateTime message).take BUFSIZ =
      recordText logParams dateTime (messageLine message ++ List.replicate
        (min (BUFSIZ - (recordLine logParams dateTime message).length) n) newline) := by
    have hnewline : ascii "\n" = List.replicate 1 newline := rfl
    rw [htext, List.take_append, List.take_of_length_le hfits, List.take_replicate]
    simp only [recordLine, recordText, List.append_assoc, hnewline,
      List.replicate_append_replicate, Nat.add_comm]
  refine ⟨_, later, by rw [handedOver, bufferSize, hblocks, hfirst, List.map_cons], ?_⟩
  intro block hblock
  refine ⟨block.length, List.eq_replicate_of_mem fun b hb => ?_⟩
  have hmem : b ∈ later.flatten := List.mem_flatten.mpr ⟨block, hblock, hb⟩
  rw [hlater, htext, List.drop_append, List.drop_of_length_le hfits, List.nil_append,
    List.drop_replicate] at hmem
  exact List.eq_of_mem_replicate hmem

section

variable {logParams : LogParams} (hparams : logParams.Readable)

include hparams

/-- A record whose line fits is handed over with the whole line, and with newlines behind it. -/
theorem handedOver_recordText (BUFSIZ : Nat) (output : LogOutput) {dateTime message : CString}
    (hdateTime : Word dateTime) (hmessage : OneLine message)
    (hfits : output = .logFile → (recordLine logParams dateTime message).length ≤ BUFSIZ) :
    (∀ block ∈ handedOver BUFSIZ (output, recordText logParams dateTime message),
      block.1 = output ∧ RecordBlock logParams block.2) ∧
    (handedOver BUFSIZ (output, recordText logParams dateTime message)).filterMap readBlock =
      [(output, logParams.record dateTime message)] := by
  cases output with
  | console =>
      constructor
      · intro block hblock
        rw [handedOver, List.mem_map] at hblock
        obtain ⟨text, htext, rfl⟩ := hblock
        rw [List.mem_singleton.mp htext]
        exact ⟨rfl, .record hdateTime hmessage⟩
      · simp [handedOver, SharedFiles.blocks, bufferSize, readBlock,
          readRecord_recordText hparams hdateTime hmessage]
  | logFile =>
      obtain ⟨m, later, hhanded, hnewlines⟩ := exists_handedOver (hfits rfl)
      have hshort : OneLine (messageLine message ++ List.replicate m newline) := by
        rw [OneLine, messageLine_append]
        exact hmessage
      have hrecord : logParams.record dateTime
          (messageLine message ++ List.replicate m newline) =
            logParams.record dateTime message := by
        rw [LogParams.record, messageLine_append, LogParams.record]
      rw [hhanded]
      constructor
      · intro block hblock
        rcases List.mem_cons.mp hblock with rfl | hblock
        · exact ⟨rfl, .record hdateTime hshort⟩
        · obtain ⟨text, htext, rfl⟩ := List.mem_map.mp hblock
          obtain ⟨m, rfl⟩ := hnewlines text htext
          exact ⟨rfl, .newlines m⟩
      · have hnone : (later.map fun block => (LogOutput.logFile, block)).filterMap readBlock =
            [] := by
          rw [List.filterMap_eq_nil_iff]
          intro written hwritten
          obtain ⟨text, htext, rfl⟩ := List.mem_map.mp hwritten
          obtain ⟨m, rfl⟩ := hnewlines text htext
          rw [readBlock, readRecord_newlines]
          rfl
        rw [List.filterMap_cons, hnone, readBlock,
          readRecord_recordText hparams hdateTime hshort, hrecord]
        rfl

/-- What a call hands over are blocks of its records, if the line of its record fits. -/
theorem handedOver_logHandler {build : Build} {BUFSIZ : Nat} {call : LogCall}
    (hcall : call.Readable) (hfits : call.Fits build logParams BUFSIZ) :
    (∀ block ∈ (logHandler build logParams call).flatMap (handedOver BUFSIZ),
      RecordBlock logParams block.2) ∧
    ((logHandler build logParams call).flatMap (handedOver BUFSIZ)).filterMap readBlock =
      call.records build logParams := by
  -- the console is not buffered
  have hconsole : ∀ {dateTime message : CString}, Word dateTime → OneLine message →
      (∀ block ∈ handedOver BUFSIZ (log2Console logParams dateTime message),
        RecordBlock logParams block.2) ∧
      (handedOver BUFSIZ (log2Console logParams dateTime message)).filterMap readBlock =
        [(.console, logParams.record dateTime message)] := by
    intro dateTime message hdateTime hmessage
    obtain ⟨hblocks, hread⟩ := handedOver_recordText hparams BUFSIZ .console hdateTime hmessage
      nofun
    exact ⟨fun block hblock => (hblocks block hblock).2, hread⟩
  cases build with
  | debug =>
      obtain ⟨hblocks, hread⟩ := hconsole hcall.dateTime hcall.message
      simp only [logHandler, List.flatMap_singleton, LogCall.records]
      exact ⟨hblocks, hread⟩
  | release =>
      cases herror : call.fopenError with
      | none =>
          obtain ⟨hblocks, hread⟩ := handedOver_recordText hparams BUFSIZ .logFile
            hcall.dateTime hcall.message fun _ => hfits rfl herror
          simp only [logHandler, log2File, herror, List.flatMap_singleton, LogCall.records]
          exact ⟨fun block hblock => (hblocks block hblock).2, hread⟩
      | some error =>
          obtain ⟨hblocks, hread⟩ := hconsole hcall.dateTime
            (oneLine_errorMsg hparams (hcall.fopenError _ herror))
          obtain ⟨hblocks', hread'⟩ := hconsole hcall.laterDateTime hcall.message
          simp only [logHandler, log2File, herror, List.flatMap_cons, List.flatMap_nil,
            List.append_nil, List.filterMap_append, LogCall.records]
          rw [hread, hread']
          exact ⟨fun block hblock =>
            (List.mem_append.mp hblock).elim (hblocks block) (hblocks' block), rfl⟩

end

/-- What is handed over are the texts that are written. -/
theorem flatMap_handedOver (BUFSIZ : Nat) (output : LogOutput)
    (written : List (LogOutput × CString)) :
    ((written.flatMap (handedOver BUFSIZ)).filter (·.1 = output)).flatMap (·.2) =
      (written.filter (·.1 = output)).flatMap (·.2) := by
  have hflatten : ∀ (block : Option Nat) (text : CString),
      (SharedFiles.blocks block text).flatten = text := by
    intro block text
    cases block with
    | none => exact List.append_nil text
    | some size => exact SharedFiles.flatten_blocksFrom size [] text
  induction written with
  | nil => rfl
  | cons first written ih =>
      obtain ⟨k, text⟩ := first
      rw [List.flatMap_cons, List.filter_append, List.flatMap_append, ih, handedOver,
        List.filter_map]
      by_cases hk : k = output
      · simp [hk, List.flatMap_def, hflatten, Function.comp_def]
      · simp [hk, Function.comp_def]

section

variable {logParams : LogParams} (hparams : logParams.Readable)

include hparams

/-- What a call writes are texts of records. -/
theorem recordBlock_of_mem {build : Build} {call : LogCall} (hcall : call.Readable)
    {written : LogOutput × CString} (h : written ∈ logHandler build logParams call) :
    RecordBlock logParams written.2 := by
  cases build with
  | debug =>
      rw [logHandler, List.mem_singleton] at h
      rw [h]
      exact .record hcall.dateTime hcall.message
  | release =>
      rw [logHandler, log2File] at h
      split at h
      · rename_i error herror
        rcases List.mem_cons.mp h with rfl | h
        · exact .record hcall.dateTime (oneLine_errorMsg hparams (hcall.fopenError _ herror))
        · rw [List.mem_singleton.mp h]
          exact .record hcall.laterDateTime hcall.message
      · rw [List.mem_singleton.mp h]
        exact .record hcall.dateTime hcall.message

/-- A part of the line of a record is not ended. -/
theorem newline_notMem_take {call : LogCall} (hcall : call.Readable) {n : Nat}
    (hn : n < (recordLine logParams call.dateTime call.message).length) :
    newline ∉ (recordLine logParams call.dateTime call.message).take n := by
  rw [recordLine_eq] at hn ⊢
  rw [List.length_append, List.length_singleton] at hn
  rw [List.take_append_of_le_length (Nat.le_of_lt_succ hn)]
  intro hmem
  rcases List.mem_append.mp (List.mem_of_mem_take hmem) with hmem | hmem
  · exact newline_notMem_recordStart hparams hcall.dateTime hmem
  · exact hcall.message hmem

end

/-! ## Threads that log -/

/-- The log reads back as whole records.  Each output shows those of the history, and every thread
has written some of its records, from the first on, once and in order. -/
structure LogWhole {ι : Type} [DecidableEq ι] (build : Build) (logParams : LogParams)
    (calls : ι → List LogCall) (content : LogOutput → CString)
    (history : List (ι × LogOutput × LogRecord)) : Prop where
  content : ∀ output,
    readLog (content output) = some ((history.filter (·.2.1 = output)).map (·.2.2))
  written : ∀ i, (history.filter (·.1 = i)).map (·.2) <+:
    (calls i).flatMap (LogCall.records build logParams)

/-- The record of a block with its thread and its output. -/
def readWritten {ι : Type} (w : ι × LogOutput × CString) : Option (ι × LogOutput × LogRecord) :=
  (readBlock w.2).map fun record => (w.1, record)

/-- The records that an output shows. -/
theorem readWritten_output {ι : Type} (history : List (ι × LogOutput × CString))
    (output : LogOutput) :
    ((history.filterMap readWritten).filter (·.2.1 = output)).map (·.2.2) =
      ((history.filter (·.2.1 = output)).map (·.2.2)).filterMap readRecord := by
  induction history with
  | nil => rfl
  | cons w history ih =>
      cases hrecord : readRecord w.2.2 with
      | none =>
          have hnone : readWritten w = none := by
            rw [readWritten, readBlock, hrecord]
            rfl
          rw [List.filterMap_cons_none hnone, ih]
          by_cases hout : w.2.1 = output <;> simp [hout, hrecord]
      | some record =>
          have hsome : readWritten w = some (w.1, w.2.1, record) := by
            rw [readWritten, readBlock, hrecord]
            rfl
          rw [List.filterMap_cons_some hsome]
          by_cases hout : w.2.1 = output <;> simp [hout, hrecord, ih]

/-- The records that a thread has written. -/
theorem readWritten_thread {ι : Type} [DecidableEq ι]
    (history : List (ι × LogOutput × CString)) (i : ι) :
    ((history.filterMap readWritten).filter (·.1 = i)).map (·.2) =
      ((history.filter (·.1 = i)).map (·.2)).filterMap readBlock := by
  induction history with
  | nil => rfl
  | cons w history ih =>
      cases hblock : readBlock w.2 with
      | none =>
          have hnone : readWritten w = none := by rw [readWritten, hblock, Option.map_none]
          rw [List.filterMap_cons_none hnone, ih]
          by_cases hi : w.1 = i <;> simp [hi, hblock]
      | some record =>
          have hsome : readWritten w = some (w.1, record) := by
            rw [readWritten, hblock, Option.map_some]
          rw [List.filterMap_cons_some hsome]
          by_cases hi : w.1 = i <;> simp [hi, hblock, ih]

section

variable {ι : Type} [DecidableEq ι] {logParams : LogParams} (hparams : logParams.Readable)
  {build : Build} {calls : ι → List LogCall} (hcalls : ∀ i, ∀ call ∈ calls i, call.Readable)

include hparams hcalls

/-- Where all lines fit, what was written reads back as whole records, and a thread with nothing
left has written all of its records. -/
theorem exists_logWhole {BUFSIZ : Nat}
    (hfits : ∀ i, ∀ call ∈ calls i, call.Fits build logParams BUFSIZ)
    {s : SharedFiles ι LogOutput UInt8} (hs : (loggers build logParams BUFSIZ calls).Reachable s) :
    ∃ history, LogWhole build logParams calls s.content history ∧
      ∀ i, s.todo i = [] → (history.filter (·.1 = i)).map (·.2) =
        (calls i).flatMap (LogCall.records build logParams) := by
  obtain ⟨history, hwritten⟩ := SharedFiles.exists_written hs
  have hthread : ∀ i, ((history.filter (·.1 = i)).map (·.2)).filterMap readBlock ++
      (s.todo i).filterMap readBlock =
        (calls i).flatMap (LogCall.records build logParams) := by
    intro i
    rw [← List.filterMap_append, hwritten.todo i, List.flatMap_assoc, List.filterMap_flatMap]
    exact List.flatMap_congr fun call hcall =>
      (handedOver_logHandler hparams (hcalls i call hcall) (hfits i call hcall)).2
  have hblocks : ∀ w ∈ history, RecordBlock logParams w.2.2 := by
    intro w hw
    have hmem : w.2 ∈ ((calls w.1).flatMap (logHandler build logParams)).flatMap
        (handedOver BUFSIZ) := by
      rw [← hwritten.todo w.1]
      exact List.mem_append_left _ (List.mem_map_of_mem (by simpa using hw))
    rw [List.flatMap_assoc] at hmem
    obtain ⟨call, hcall, hblock⟩ := List.mem_flatMap.mp hmem
    exact (handedOver_logHandler hparams (hcalls _ call hcall) (hfits _ call hcall)).1 _ hblock
  refine ⟨history.filterMap readWritten, ⟨?_, ?_⟩, ?_⟩
  · intro output
    have houtput : ∀ block ∈ (history.filter (·.2.1 = output)).map (·.2.2),
        RecordBlock logParams block := by
      intro block hblock
      obtain ⟨w, hw, rfl⟩ := List.mem_map.mp hblock
      exact hblocks w (List.mem_of_mem_filter hw)
    have hread := readLog_blocks hparams houtput []
    rw [List.append_nil] at hread
    rw [hwritten.content output, List.flatMap_def, hread, readWritten_output]
    simp [readLog, textLines]
  · intro i
    rw [readWritten_thread, ← hthread i]
    exact List.prefix_append _ _
  · intro i htodo
    have hall := hthread i
    rw [htodo, List.filterMap_nil, List.append_nil] at hall
    rw [readWritten_thread, hall]

/-- A thread that goes on alone comes to a log that ends within the line of a record which does
not fit. -/
theorem exists_readLog_eq_none {BUFSIZ : Nat} (hBUFSIZ : 0 < BUFSIZ) {i : ι} {call : LogCall}
    (hcall : call ∈ calls i) (hlong : ¬ call.Fits build logParams BUFSIZ) :
    ∃ s, (loggers build logParams BUFSIZ calls).Reachable s ∧
      readLog (s.content .logFile) = none := by
  simp only [LogCall.Fits, not_forall, Nat.not_le] at hlong
  obtain ⟨rfl, hopened, hlong⟩ := hlong
  obtain ⟨before, after, hsplit⟩ := List.append_of_mem hcall
  obtain ⟨n, htext⟩ := recordText_eq_append logParams call.dateTime call.message
  -- the first block of the record is a part of its line
  have hfirst : (recordText logParams call.dateTime call.message).take BUFSIZ =
      (recordLine logParams call.dateTime call.message).take BUFSIZ := by
    rw [htext, List.take_append_of_le_length (Nat.le_of_lt hlong)]
  have hne : recordText logParams call.dateTime call.message ≠ [] := by
    rw [htext]
    intro hnil
    rw [(List.append_eq_nil_iff.mp hnil).1] at hlong
    exact absurd hlong (Nat.not_lt_zero _)
  obtain ⟨later, hblocks, -⟩ := SharedFiles.exists_cons_blocks BUFSIZ hne
  have hhanded : (logHandler .release logParams call).flatMap (handedOver BUFSIZ) =
      (.logFile, (recordLine logParams call.dateTime call.message).take BUFSIZ) ::
        later.map fun block => (.logFile, block) := by
    simp only [logHandler, log2File, hopened, List.flatMap_singleton, handedOver, bufferSize,
      hblocks, hfirst, List.map_cons]
  obtain ⟨s, hs, -, hcontent⟩ := SharedFiles.exists_alone
    (fun i => ((calls i).flatMap (logHandler .release logParams)).flatMap (handedOver BUFSIZ)) i
    (((before.flatMap (logHandler .release logParams)).flatMap (handedOver BUFSIZ)).length + 1)
  refine ⟨s, hs, ?_⟩
  have htake : (((calls i).flatMap (logHandler .release logParams)).flatMap
      (handedOver BUFSIZ)).take
        (((before.flatMap (logHandler .release logParams)).flatMap
          (handedOver BUFSIZ)).length + 1) =
      (before.flatMap (logHandler .release logParams)).flatMap (handedOver BUFSIZ) ++
        [(.logFile, (recordLine logParams call.dateTime call.message).take BUFSIZ)] := by
    rw [hsplit, List.flatMap_append, List.flatMap_append, List.flatMap_cons, List.flatMap_append,
      hhanded, List.take_length_add_append]
    rfl
  have hwhole : ∀ block ∈ ((before.flatMap (logHandler .release logParams)).filter
      (·.1 = .logFile)).map (·.2), RecordBlock logParams block := by
    intro block hblock
    obtain ⟨written, hwritten, rfl⟩ := List.mem_map.mp hblock
    obtain ⟨earlier, hearlier, hmem⟩ :=
      List.mem_flatMap.mp (List.mem_of_mem_filter hwritten)
    have hreadable : earlier.Readable := by
      apply hcalls i
      rw [hsplit]
      exact List.mem_append_left _ hearlier
    exact recordBlock_of_mem hparams hreadable hmem
  have hline : newline ∉ (recordLine logParams call.dateTime call.message).take BUFSIZ :=
    newline_notMem_take hparams (hcalls i call hcall) hlong
  have hnil : (recordLine logParams call.dateTime call.message).take BUFSIZ ≠ [] := by
    rw [Ne, List.take_eq_nil_iff, not_or]
    refine ⟨Nat.ne_of_gt hBUFSIZ, fun hnil => ?_⟩
    rw [hnil] at hlong
    exact absurd hlong (Nat.not_lt_zero _)
  rw [hcontent, htake, List.filter_append, List.flatMap_append, flatMap_handedOver,
    List.flatMap_def]
  have hlast : ([(LogOutput.logFile, (recordLine logParams call.dateTime call.message).take
      BUFSIZ)].filter (·.1 = .logFile)).flatMap (·.2) =
        (recordLine logParams call.dateTime call.message).take BUFSIZ := by
    simp
  rw [hlast, readLog_blocks hparams hwhole, readLog_eq_none hnil hline]
  rfl

end

/-- Two threads, one of which cannot open the log file. -/
def exampleCalls : Bool → List LogCall
  | false => [⟨ascii "Signal: 15\n", none, ascii "2013-05-02T10:00:00+0200", []⟩]
  | true => [⟨ascii "probe.conf: no token", some (ascii "Permission denied"),
      ascii "2013-05-02T10:00:00+0200", ascii "2013-05-02T10:00:01+0200"⟩]

/-- The parameters of a probe. -/
def exampleLogParams : LogParams :=
  ⟨ascii "localhost", APP_NAME, 4242, ascii "/var/log/echoes-alert/probe.log"⟩

end AlertProbe
