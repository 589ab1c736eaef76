import AlertProbe.Wire.Payload

/-!
# Decoding payloads

A decoder for the messages of the probe, one function for each function of the
probe that prints a part of them.  It undoes the encoding as long as nothing is
cut: values are percent-encoded, so none of them can end its own quotes, the
SD-ELEMENT or the message.

Main results:

- Theorems `decodeBeforeMsgID_append`, `decodeAfterMsgID_append`,
  `decodeValues_renderValues` and `decodeAfterOffset_renderOffset`: each part is
  read back.
- Theorem `decode_completeText`: a complete rendering is read back.
- Theorem `decode_payload`: what the probe hands to the transport is read back.
-/

namespace AlertProbe

open Foundations

/-! ## Decoder -/

/-- The data of a message that is not a heartbeat. -/
structure MessageData where
  lotNum : Int32
  lineNum : Int32
  values : List (Int32 × CString)
deriving DecidableEq, Repr

/-- What a message says; a heartbeat has no data. -/
structure Message where
  hostname : CString
  appName : CString
  pID : Int32
  msgID : UInt16
  transportMsgVersion : UInt8
  probeID : UInt32
  token : CString
  offset : Int32
  data : Option MessageData
deriving DecidableEq, Repr

/-- Read what `pushSDElementQueue` prints into `beforeMsgID`. -/
def decodeBeforeMsgID (input : CString) : Option ((CString × CString × Int32) × CString) := do
  let (hostname, input) ← field (charByte ' ') input
  let (appName, input) ← field (charByte ' ') input
  let (pID, input) ← integer input
  let input ← literal (ascii " ID") input
  some ((hostname, appName, Int32.ofInt pID), input)

/-- Read what `pushSDElementQueue` prints into `afterMsgID`. -/
def decodeAfterMsgID (input : CString) : Option ((UInt8 × UInt32 × CString) × CString) := do
  let input ← literal (ascii "[prop@40311 ver=") input
  let (version, input) ← integer input
  let input ← literal (ascii " probe=") input
  let (probeID, input) ← integer input
  let input ← literal (ascii " token=\"") input
  let (token, input) ← field (charByte '"') input
  let input ← literal (ascii "][res1@40311 offset=") input
  some ((UInt8.ofNat version.toNat, (Int32.ofInt probeID).toUInt32, token), input)

/-- Read the values that `popCollectQueue` prints, up to the end of the message. -/
def decodeValues : Nat → CString → Option (List (Int32 × CString))
  | 0, _ => none
  | fuel + 1, input =>
      if input = ascii "]\n" then some []
      else do
        let input ← literal (ascii " ") input
        let (id, input) ← integer input
        let input ← literal (ascii "=\"") input
        let (escaped, input) ← field (charByte '"') input
        let value ← percentDecode escaped
        let values ← decodeValues fuel input
        some ((Int32.ofInt id, value) :: values)

/-- Read what `popCollectQueue` prints into `afterOffset`, up to the end of the message. -/
def decodeAfterOffset (input : CString) : Option (Option MessageData) :=
  if input = ascii "]\n" then some none
  else do
    let input ← literal (ascii " lotNum=") input
    let (lotNum, input) ← integer input
    let input ← literal (ascii " lineNum=") input
    let (lineNum, input) ← integer input
    let values ← decodeValues input.length input
    some (some ⟨Int32.ofInt lotNum, Int32.ofInt lineNum, values⟩)

/-- Read what `sendMessage` prints. -/
def decode (payload : CString) : Option Message := do
  let input ← literal (ascii "<118>1 ") payload
  let (_, input) ← field (charByte ' ') input
  let ((hostname, appName, pID), input) ← decodeBeforeMsgID input
  let (msgID, input) ← integer input
  let input ← literal (ascii " ") input
  let ((transportMsgVersion, probeID, token), input) ← decodeAfterMsgID input
  let (offset, input) ← integer input
  let data ← decodeAfterOffset input
  some
    { hostname, appName, pID
      msgID := UInt16.ofNat msgID.toNat
      transportMsgVersion, probeID, token
      offset := Int32.ofInt offset
      data }

/-! ## Reading the parts back -/

/-- A text that starts with the given literal ends a number before it. -/
theorem delimited_ascii_append {s : String} {b : UInt8} {text : CString} (hs : ascii s = b :: text)
    (hb : isDigit b = false) (rest : CString) : Delimited (ascii s ++ rest) := by
  rw [hs]
  exact (delimited_cons b (text ++ rest)).mpr hb

/-- A text that starts with the given literal is not the end of a message. -/
theorem ascii_append_ne_end {s : String} {b : UInt8} {text : CString} (hs : ascii s = b :: text)
    (hb : b ≠ charByte ']') (rest : CString) : ascii s ++ rest ≠ ascii "]\n" := by
  rw [hs]
  intro heq
  have hend : ascii "]\n" = charByte ']' :: ascii "\n" := rfl
  rw [hend, List.cons_append, List.cons.injEq] at heq
  exact hb heq.1

/-- The part in front of the message ID is read back. -/
theorem decodeBeforeMsgID_append {header : SDElementHeader}
    (hhostname : charByte ' ' ∉ header.hostname) (happName : charByte ' ' ∉ header.appName)
    (rest : CString) :
    decodeBeforeMsgID (beforeMsgIDText header ++ rest) =
      some ((header.hostname, header.appName, header.pID), rest) := by
  have hblank : ascii " " = [charByte ' '] := rfl
  have hid : Delimited (ascii " ID" ++ rest) := delimited_ascii_append rfl rfl rest
  simp only [beforeMsgIDText, decodeBeforeMsgID, List.append_assoc, hblank, List.cons_append,
    List.nil_append, field_append hhostname, field_append happName, integer_decimal _ hid,
    literal_append, Option.bind_eq_bind, Option.bind_some, Int32.ofInt_toInt]

/-- The part behind the message ID is read back. -/
theorem decodeAfterMsgID_append {header : SDElementHeader}
    (htoken : charByte '"' ∉ header.token) (rest : CString) :
    decodeAfterMsgID (afterMsgIDText header ++ rest) =
      some ((header.transportMsgVersion, header.probeID, header.token), rest) := by
  have hquote : ascii "\"][res1@40311 offset=" =
      charByte '"' :: ascii "][res1@40311 offset=" := rfl
  have hprobe : ∀ rest, Delimited (ascii " probe=" ++ rest) :=
    delimited_ascii_append rfl rfl
  have htoken' : ∀ rest, Delimited (ascii " token=\"" ++ rest) :=
    delimited_ascii_append rfl rfl
  simp only [afterMsgIDText, decodeAfterMsgID, List.append_assoc, hquote, List.cons_append,
    literal_append, integer_decimal _ (hprobe _), integer_decimal _ (htoken' _),
    field_append htoken, Option.bind_eq_bind, Option.bind_some, Int.toNat_natCast,
    UInt8.ofNat_toNat, Int32.ofInt_toInt, UInt32.toUInt32_toInt32]

/-- An escaped value has none of the bytes that end quotes, SD-ELEMENTs and messages. -/
theorem not_mem_escaped {text escaped : CString} (h : Escapes text escaped) {b : UInt8}
    (hb : escapedAlphabet b = false) : b ∉ escaped := by
  intro hmem
  have hsafe := h.safe b hmem
  rw [hb] at hsafe
  cases hsafe

/-- The values of a reading are read back, whatever their bytes are. -/
theorem decodeValues_renderValues {glib : GLib} (hglib : glib.Documented)
    (values : List (Int32 × CString)) {fuel : Nat} (hfuel : values.length < fuel) :
    decodeValues fuel (renderValues glib values ++ ascii "]\n") = some values := by
  induction values generalizing fuel with
  | nil =>
      cases fuel with
      | zero => cases hfuel
      | succ fuel => simp [renderValues, decodeValues]
  | cons p values ih =>
      rcases p with ⟨id, value⟩
      cases fuel with
      | zero => cases hfuel
      | succ fuel =>
          have hrest := ih (Nat.lt_of_succ_lt_succ hfuel)
          have hescapes := hglib.escapes value
          have hquote : charByte '"' ∉ glib.g_uri_escape_string value :=
            not_mem_escaped hescapes rfl
          have hid : ∀ rest, Delimited (ascii "=\"" ++ rest) := delimited_ascii_append rfl rfl
          -- the text of this value, then the rest of the message
          have htext : renderValues glib ((id, value) :: values) ++ ascii "]\n" =
              ascii " " ++ (decimal id.toInt ++ (ascii "=\"" ++
                (glib.g_uri_escape_string value ++
                  charByte '"' :: (renderValues glib values ++ ascii "]\n")))) := by
            have hend : ascii "\"" = [charByte '"'] := rfl
            simp [renderValues, valueText, hend]
          have hmore : ∀ rest, ascii " " ++ rest ≠ ascii "]\n" :=
            ascii_append_ne_end rfl (by decide)
          rw [htext]
          simp only [decodeValues, if_neg (hmore _), literal_append, integer_decimal _ (hid _),
            field_append hquote, hescapes.decode, hrest, Option.bind_eq_bind, Option.bind_some,
            Int32.ofInt_toInt]

/-- What the SD-ELEMENT says behind the offset of a reading. -/
def dataOf (e : CollectQueueElement) : MessageData where
  lotNum := e.lotNum
  lineNum := e.lineNum
  values := e.idsIDA.zip e.values

/-- The part behind the offset of a reading is read back. -/
theorem decodeAfterOffset_renderOffset {glib : GLib} (hglib : glib.Documented)
    (e : CollectQueueElement) :
    decodeAfterOffset (renderOffset glib e ++ ascii "]\n") = some (some (dataOf e)) := by
  have hlot : ∀ rest, Delimited (ascii " lineNum=" ++ rest) := delimited_ascii_append rfl rfl
  have hline : Delimited (renderValues glib (e.idsIDA.zip e.values) ++ ascii "]\n") := by
    cases hvalues : e.idsIDA.zip e.values with
    | nil =>
        have hend : ascii "]\n" = charByte ']' :: ascii "\n" := rfl
        simp only [renderValues, List.flatMap_nil, List.nil_append, hend, delimited_cons]
        rfl
    | cons p values =>
        have hblank : ascii " " = [charByte ' '] := rfl
        simp only [renderValues, List.flatMap_cons, valueText, hblank, List.cons_append,
          delimited_cons]
        rfl
  have htext : renderOffset glib e ++ ascii "]\n" =
      ascii " lotNum=" ++ (decimal e.lotNum.toInt ++ (ascii " lineNum=" ++
        (decimal e.lineNum.toInt ++
          (renderValues glib (e.idsIDA.zip e.values) ++ ascii "]\n")))) := by
    simp [renderOffset, lotText]
  have hmore : ∀ rest, ascii " lotNum=" ++ rest ≠ ascii "]\n" :=
    ascii_append_ne_end rfl (by decide)
  -- a value takes at least five bytes, so the length of the text is fuel enough
  have hfuel : (e.idsIDA.zip e.values).length <
      (renderValues glib (e.idsIDA.zip e.values) ++ ascii "]\n").length := by
    have hvalues := renderValues_length glib (e.idsIDA.zip e.values)
    have hend : (ascii "]\n").length = 2 := rfl
    rw [List.length_append, hend]
    omega
  rw [htext]
  simp only [decodeAfterOffset, if_neg (hmore _), literal_append, integer_decimal _ (hlot _),
    integer_decimal _ hline, decodeValues_renderValues hglib _ hfuel, Option.bind_eq_bind,
    Option.bind_some, Int32.ofInt_toInt, dataOf]

/-! ## Reading a message back -/

/-- The message that stands for an element of the queue with the given data. -/
def messageOf (header : SDElementHeader) (msgID : UInt16) (offset : Int32)
    (data : Option MessageData) : Message where
  hostname := header.hostname
  appName := header.appName
  pID := header.pID
  msgID := msgID
  transportMsgVersion := header.transportMsgVersion
  probeID := header.probeID
  token := header.token
  offset := offset
  data := data

/-- A complete rendering is read back, if its part behind the offset is. -/
theorem decode_completeText {glib : GLib} (hglib : glib.Documented) {header : SDElementHeader}
    (hhostname : charByte ' ' ∉ header.hostname) (happName : charByte ' ' ∉ header.appName)
    (htoken : charByte '"' ∉ header.token) {element : SDElementQueueElement}
    (hbefore : element.beforeMsgID = beforeMsgIDText header)
    (hafter : element.afterMsgID = afterMsgIDText header) {data : Option MessageData}
    (hdelimited : Delimited (element.afterOffset ++ ascii "]\n"))
    (hdata : decodeAfterOffset (element.afterOffset ++ ascii "]\n") = some data)
    (msgID : UInt16) (g_time : GTimeVal) (offset : Int32) :
    decode (completeText glib element msgID g_time offset) =
      some (messageOf header msgID offset data) := by
  have htime := hglib.iso8601_no_space g_time
  have hmsgID : ∀ rest, Delimited (ascii " " ++ rest) := delimited_ascii_append rfl rfl
  have htext : completeText glib element msgID g_time offset =
      ascii "<118>1 " ++ (glib.g_time_val_to_iso8601 g_time ++ charByte ' ' ::
        (beforeMsgIDText header ++ (decimal msgID.toNat ++ (ascii " " ++
          (afterMsgIDText header ++ (decimal offset.toInt ++
            (element.afterOffset ++ ascii "]\n"))))))) := by
    have hblank : ascii "<118>1 " ++ glib.g_time_val_to_iso8601 g_time ++ ascii " " =
        ascii "<118>1 " ++ glib.g_time_val_to_iso8601 g_time ++ [charByte ' '] := rfl
    simp only [completeText, hblank, hbefore, hafter, List.append_assoc, List.cons_append,
      List.nil_append]
  rw [htext]
  simp only [decode, literal_append, field_append htime,
    decodeBeforeMsgID_append hhostname happName, integer_decimal _ (hmsgID _),
    decodeAfterMsgID_append htoken, integer_decimal _ hdelimited, hdata,
    Option.bind_eq_bind, Option.bind_some, Int.toNat_natCast, UInt16.ofNat_toNat,
    Int32.ofInt_toInt, messageOf]

/-- Every payload that `sendMessage` hands over for the element, unless it is cut, is read
back as the message with the given data. -/
def PayloadsDecode (glib : GLib) (header : SDElementHeader) (element : SDElementQueueElement)
    (data : Option MessageData) : Prop :=
  ∀ params msgID env result, sendMessage glib params element msgID env = some result →
    ∀ offset, messageOffset env.now element.time = some offset →
      (completeText glib element msgID env.g_time offset).length ≤ 479 →
        ∀ call ∈ result.calls, ∀ payload, call.payload = some payload →
          decode payload = some (messageOf header msgID offset data)

/-- What can be read back as a complete rendering can be read back as a payload. -/
theorem payloadsDecode {glib : GLib} {header : SDElementHeader}
    {element : SDElementQueueElement} {data : Option MessageData}
    (h : ∀ msgID g_time offset, decode (completeText glib element msgID g_time offset) =
      some (messageOf header msgID offset data)) :
    PayloadsDecode glib header element data := by
  intro params msgID env result hsend offset hoffset hshort call hcall payload hpayload
  rcases sendMessage_payload hsend with ⟨offset', hoffset', hall⟩
  have hsame : offset' = offset := Option.some.inj (hoffset'.symm.trans hoffset)
  subst hsame
  have hcomplete : completMsg glib element msgID env.g_time offset' =
      completeText glib element msgID env.g_time offset' :=
    (snprintf_eq_self_iff (by decide) _).mpr (by omega)
  rw [hall call hcall payload hpayload, hcomplete]
  exact h msgID env.g_time offset'

/-- Decoding undoes encoding.  What `popCollectQueue` appends for a reading and what a
heartbeat appends are read back from every payload that is not cut: the header fields, the
message ID, the offset, and the numbers and values of the reading, in order.  No escaped
value has a quote, a closing bracket or a line feed in it. -/
theorem decode_payload {glib : GLib} (hglib : glib.Documented) {header : SDElementHeader}
    (hhostname : charByte ' ' ∉ header.hostname) (happName : header.appName = APP_NAME)
    (htoken : charByte '"' ∉ header.token) :
    (∀ e next queue out, popCollectQueue glib header (e :: next) queue = some out →
      ∃ element, out = (next, queue ++ [element]) ∧
        PayloadsDecode glib header element (some (dataOf e))) ∧
    (∀ queue time out, pushSDElementQueue header queue (ascii "") time = some out →
      ∃ element, out = queue ++ [element] ∧ PayloadsDecode glib header element none) ∧
    (∀ value, charByte '"' ∉ glib.g_uri_escape_string value ∧
      charByte ']' ∉ glib.g_uri_escape_string value ∧
      charByte '\n' ∉ glib.g_uri_escape_string value) := by
  have happName' : charByte ' ' ∉ header.appName := by
    rw [happName]
    decide
  refine ⟨?_, ?_, ?_⟩
  · intro e next queue out hpop
    refine ⟨render glib header e, (popCollectQueue_eq_some.mp hpop).1, ?_⟩
    apply payloadsDecode
    have hdelimited : Delimited (renderOffset glib e ++ ascii "]\n") := by
      simp only [renderOffset, lotText, List.append_assoc]
      exact delimited_ascii_append rfl rfl _
    exact decode_completeText hglib hhostname happName' htoken rfl rfl hdelimited
      (decodeAfterOffset_renderOffset hglib e)
  · intro queue time out hpush
    simp only [pushSDElementQueue, Option.bind_eq_bind, Option.bind_eq_some_iff,
      Option.some.injEq] at hpush
    rcases hpush with ⟨new, hnew, rfl⟩
    refine ⟨renderHeartBeat header time, by rw [newSDElement_heartBeat hnew], ?_⟩
    apply payloadsDecode
    exact decode_completeText hglib hhostname happName' htoken rfl rfl
      (fun b hb => by cases hb; rfl) rfl
  · intro value
    have hescapes := hglib.escapes value
    exact ⟨not_mem_escaped hescapes rfl, not_mem_escaped hescapes rfl,
      not_mem_escaped hescapes rfl⟩

/-- The payload of the unit test's reading is read back. -/
theorem decode_payload_reading :
    ∃ result payload,
      sendMessage exampleGLib exampleParams.sender
        (render exampleGLib exampleHeader exampleReading) 1 (exampleEnv 100) = some result ∧
      TransportCall.write payload ∈ result.calls ∧
      decode payload =
        some (messageOf exampleHeader 1 93 (some ⟨6, 5, [(1, ascii "a")]⟩)) := by
  have hpop : popCollectQueue exampleGLib exampleHeader [exampleReading] [] =
      some ([], [render exampleGLib exampleHeader exampleReading]) := by
    decide
  have hpayloads : PayloadsDecode exampleGLib exampleHeader
      (render exampleGLib exampleHeader exampleReading) (some (dataOf exampleReading)) := by
    rcases (decode_payload exampleGLib_documented (by decide) rfl (by decide)).1 _ _ _ _ hpop
      with ⟨element, hout, hdecodes⟩
    cases hout
    exact hdecodes
  refine ⟨_, _, rfl, .tail _ (.head _), ?_⟩
  exact hpayloads exampleParams.sender 1 (exampleEnv 100) _ rfl 93 (by decide)
    (by decide +kernel) _ (.tail _ (.head _)) _ rfl

end AlertProbe
