import AlertProbe.Pipeline.MessageID
import AlertProbe.Pipeline.ProcessID
import AlertProbe.Transport.Status
import AlertProbe.Wire.CollectTime
import AlertProbe.Wire.Decoder

/-!
# What the engine learns

No message is the beginning of another one, so the engine never takes a payload
that `snprintf` or the transport has cut for a message.  What it reads from the
other payloads are the readings in the order in which they were collected, and the
message IDs tell it how many messages it has not seen in between.

Main results:

- Theorem `decode_append_eq_none`: nothing behind a message is ignored.
- Theorem `decode_take_iff`: which beginnings of a message are read, and as what.
- Theorem `engine_reads_readings`: what is read in a run.
- Theorem `engine_counts_losses`: what the message IDs say about the rest.
-/

namespace AlertProbe

open Foundations

/-! ## No message is the beginning of another one -/

/-- Where a literal was scanned there was something to scan. -/
theorem ne_nil_of_literal {s : String} {b : UInt8} {text : CString} (hs : ascii s = b :: text)
    {input rest : CString} (h : literal (ascii s) input = some rest) : input ≠ [] := by
  rintro rfl
  rw [hs] at h
  cases h

/-- The part in front of the message ID is read in front of more text. -/
theorem decodeBeforeMsgID_append_right {input rest : CString} {part : CString × CString × Int32}
    (h : decodeBeforeMsgID input = some (part, rest)) (more : CString) :
    decodeBeforeMsgID (input ++ more) = some (part, rest ++ more) := by
  simp only [decodeBeforeMsgID, Option.bind_eq_bind, Option.bind_eq_some_iff,
    Option.some.injEq, Prod.mk.injEq] at h
  obtain ⟨⟨hostname, input₁⟩, hhostname, ⟨appName, input₂⟩, happName, ⟨pID, input₃⟩, hpID,
    input₄, hid, rfl, rfl⟩ := h
  have hne : input₃ ≠ [] := ne_nil_of_literal rfl hid
  simp only [decodeBeforeMsgID, field_append_right hhostname, field_append_right happName,
    integer_append_right hpID hne, literal_append_right hid, Option.bind_eq_bind,
    Option.bind_some]

/-- The part behind the message ID is read in front of more text. -/
theorem decodeAfterMsgID_append_right {input rest : CString} {part : UInt8 × UInt32 × CString}
    (h : decodeAfterMsgID input = some (part, rest)) (more : CString) :
    decodeAfterMsgID (input ++ more) = some (part, rest ++ more) := by
  simp only [decodeAfterMsgID, Option.bind_eq_bind, Option.bind_eq_some_iff,
    Option.some.injEq, Prod.mk.injEq] at h
  obtain ⟨input₁, hver, ⟨version, input₂⟩, hversion, input₃, hprobe, ⟨probeID, input₄⟩,
    hprobeID, input₅, htoken, ⟨token, input₆⟩, hfield, input₇, hoffset, rfl, rfl⟩ := h
  have hne₂ : input₂ ≠ [] := ne_nil_of_literal rfl hprobe
  have hne₄ : input₄ ≠ [] := ne_nil_of_literal rfl htoken
  simp only [decodeAfterMsgID, literal_append_right hver, integer_append_right hversion hne₂,
    literal_append_right hprobe, integer_append_right hprobeID hne₄,
    literal_append_right htoken, field_append_right hfield, literal_append_right hoffset,
    Option.bind_eq_bind, Option.bind_some]

/-- The end of a message does not start with a blank. -/
theorem literal_end {s : String} {text : CString} (hs : ascii s = charByte ' ' :: text)
    (more : CString) : literal (ascii s) (ascii "]\n" ++ more) = none := by
  have hend : ascii "]\n" = charByte ']' :: ascii "\n" := rfl
  have hne : (charByte ']' == charByte ' ') = false := by decide
  rw [hs, hend]
  simp [literal, List.dropPrefix?, hne]

/-- What starts with a blank is not the end of a message. -/
theorem ne_end_of_literal {s : String} {text : CString} (hs : ascii s = charByte ' ' :: text)
    {input rest : CString} (h : literal (ascii s) input = some rest) : input ≠ ascii "]\n" := by
  rintro rfl
  have hnone := literal_end hs []
  rw [List.append_nil, h] at hnone
  cases hnone

/-- What goes on behind the end of a message is not the end of one. -/
theorem end_append_ne {more : CString} (hmore : more ≠ []) : ascii "]\n" ++ more ≠ ascii "]\n" :=
  fun heq => hmore (List.append_right_eq_self.mp heq)

/-- Values that were read up to the end of a text are not read in front of more text. -/
theorem decodeValues_append_eq_none {fuel : Nat} {input more : CString}
    {values : List (Int32 × CString)} (h : decodeValues fuel input = some values)
    (hmore : more ≠ []) (fuel' : Nat) : decodeValues fuel' (input ++ more) = none := by
  induction fuel generalizing input values fuel' with
  | zero => cases h
  | succ fuel ih =>
      cases fuel' with
      | zero => rfl
      | succ fuel' =>
          by_cases hend : input = ascii "]\n"
          · have hnone : literal (ascii " ") (ascii "]\n" ++ more) = none := literal_end rfl more
            rw [hend]
            simp only [decodeValues, if_neg (end_append_ne hmore), hnone, Option.bind_eq_bind,
              Option.bind_none]
          · rw [decodeValues, if_neg hend] at h
            simp only [Option.bind_eq_bind, Option.bind_eq_some_iff] at h
            obtain ⟨input₁, hblank, ⟨id, input₂⟩, hid, input₃, hquote, ⟨escaped, input₄⟩, hfield,
              value, hvalue, rest, hrest, _⟩ := h
            have hne₂ : input₂ ≠ [] := ne_nil_of_literal rfl hquote
            have hblank' := literal_append_right hblank more
            simp only [decodeValues, if_neg (ne_end_of_literal rfl hblank'), hblank',
              integer_append_right hid hne₂, literal_append_right hquote,
              field_append_right hfield, hvalue, ih hrest fuel', Option.bind_eq_bind,
              Option.bind_some, Option.bind_none]

/-- Where values were read there was something to read. -/
theorem ne_nil_of_decodeValues {fuel : Nat} {input : CString} {values : List (Int32 × CString)}
    (h : decodeValues fuel input = some values) : input ≠ [] := by
  rintro rfl
  cases fuel with
  | zero => cases h
  | succ fuel => cases h

/-- The part behind the offset is not read in front of more text. -/
theorem decodeAfterOffset_append_eq_none {input more : CString} {data : Option MessageData}
    (h : decodeAfterOffset input = some data) (hmore : more ≠ []) :
    decodeAfterOffset (input ++ more) = none := by
  by_cases hend : input = ascii "]\n"
  · have hnone : literal (ascii " lotNum=") (ascii "]\n" ++ more) = none := literal_end rfl more
    rw [hend]
    simp only [decodeAfterOffset, if_neg (end_append_ne hmore), hnone, Option.bind_eq_bind,
      Option.bind_none]
  · rw [decodeAfterOffset, if_neg hend] at h
    simp only [Option.bind_eq_bind, Option.bind_eq_some_iff] at h
    obtain ⟨input₁, hlot, ⟨lotNum, input₂⟩, hlotNum, input₃, hline, ⟨lineNum, input₄⟩, hlineNum,
      values, hvalues, _⟩ := h
    have hne₂ : input₂ ≠ [] := ne_nil_of_literal rfl hline
    have hne₄ : input₄ ≠ [] := ne_nil_of_decodeValues hvalues
    have hlot' := literal_append_right hlot more
    simp only [decodeAfterOffset, if_neg (ne_end_of_literal rfl hlot'), hlot',
      integer_append_right hlotNum hne₂, literal_append_right hline,
      integer_append_right hlineNum hne₄, decodeValues_append_eq_none hvalues hmore,
      Option.bind_eq_bind, Option.bind_some, Option.bind_none]

/-- Where the part behind the offset was read there was something to read. -/
theorem ne_nil_of_decodeAfterOffset {input : CString} {data : Option MessageData}
    (h : decodeAfterOffset input = some data) : input ≠ [] := by
  rintro rfl
  cases h

/-- A message is not read in front of more text: no message is the beginning of another. -/
theorem decode_append_eq_none {payload more : CString} {message : Message}
    (h : decode payload = some message) (hmore : more ≠ []) :
    decode (payload ++ more) = none := by
  simp only [decode, Option.bind_eq_bind, Option.bind_eq_some_iff] at h
  obtain ⟨input₁, hpri, ⟨timestamp, input₂⟩, htimestamp, ⟨⟨hostname, appName, pID⟩, input₃⟩,
    hbefore, ⟨msgID, input₄⟩, hmsgID, input₅, hblank, ⟨⟨version, probeID, token⟩, input₆⟩,
    hafter, ⟨offset, input₇⟩, hoffset, data, hdata, _⟩ := h
  have hne₄ : input₄ ≠ [] := ne_nil_of_literal rfl hblank
  have hne₇ : input₇ ≠ [] := ne_nil_of_decodeAfterOffset hdata
  simp only [decode, literal_append_right hpri, field_append_right htimestamp,
    decodeBeforeMsgID_append_right hbefore, integer_append_right hmsgID hne₄,
    literal_append_right hblank, decodeAfterMsgID_append_right hafter,
    integer_append_right hoffset hne₇, decodeAfterOffset_append_eq_none hdata hmore,
    Option.bind_eq_bind, Option.bind_some, Option.bind_none]

/-! ## Payloads -/

/-- The beginning of a message is read exactly when it is the whole message. -/
theorem decode_take_iff {text : CString} {whole : Message} (h : decode text = some whole)
    (n : Nat) (message : Message) :
    decode (text.take n) = some message ↔ text.length ≤ n ∧ message = whole := by
  constructor
  · intro hread
    have hshort : text.length ≤ n := by
      by_contra hlong
      have hmore : text.drop n ≠ [] := by
        rw [Ne, List.drop_eq_nil_iff]
        exact hlong
      have hnone := decode_append_eq_none hread hmore
      rw [List.take_append_drop, h] at hnone
      cases hnone
    rw [List.take_of_length_le hshort, h, Option.some.injEq] at hread
    exact ⟨hshort, hread.symm⟩
  · intro hwhole
    rw [List.take_of_length_le hwhole.1, h, hwhole.2]

/-! ## What is read in a run -/

/-- The texts of the header end where the decoder looks for their ends. -/
structure SDElementHeader.Readable (header : SDElementHeader) : Prop where
  hostname : charByte ' ' ∉ header.hostname
  appName : charByte ' ' ∉ header.appName
  token : charByte '"' ∉ header.token

/-- The data of an element of the SD-Element queue; a heartbeat has none. -/
def SDElementQueueElement.data (e : SDElementQueueElement) : Option MessageData :=
  (decodeAfterOffset (e.afterOffset ++ ascii "]\n")).join

/-- The message in the payload that a hand-over passed to the transport, if it was not cut. -/
def Handed.offered (handed : Handed) : Option Message :=
  (handed.result.calls.findSome? TransportCall.payload).bind decode

/-- The messages in the payloads that were passed to the transport. -/
def History.offered (history : History) : List Message :=
  history.handed.filterMap Handed.offered

/-- What the engine reads from the bytes that the transport took from a hand-over, if any. -/
def Handed.read (handed : Handed) : Option Message :=
  handed.result.calls.findSome? fun call =>
    (call.payload.map fun payload => payload.take (handed.env.accepted call)).bind decode

/-- What the engine reads from the bytes that the transport took. -/
def History.read (history : History) : List Message :=
  history.handed.filterMap Handed.read

/-- The data of a rendered reading are those of the reading. -/
theorem data_render {glib : GLib} (hglib : glib.Documented) (header : SDElementHeader)
    (e : CollectQueueElement) : (render glib header e).data = some (dataOf e) := by
  change (decodeAfterOffset (renderOffset glib e ++ ascii "]\n")).join = _
  rw [decodeAfterOffset_renderOffset hglib e]
  rfl

/-- What is not data has no data. -/
theorem data_of_not_isData {e : SDElementQueueElement} (h : e.isData = false) :
    e.data = none := by
  have hempty : e.afterOffset = [] := by
    simpa [SDElementQueueElement.isData] using h
  rw [SDElementQueueElement.data, hempty]
  rfl

/-- Whatever is handed over was rendered from a reading or has nothing behind its offset. -/
theorem handed_cases {p : Params} {s : State} (h : (probe p).Reachable s) {handed : Handed}
    (hmem : handed ∈ s.history.handed) :
    (∃ e, handed.element = render p.glib p.header e) ∨ handed.element.isData = false := by
  cases hdata : handed.element.isData with
  | false => exact Or.inr rfl
  | true =>
      left
      have hdataMem : handed ∈ s.history.dataHanded := List.mem_filter.mpr ⟨hmem, hdata⟩
      rcases List.getElem?_of_mem hdataMem with ⟨k, hk⟩
      rcases dataHanded_getElem? h hk with ⟨e, _, he⟩
      exact ⟨e, he⟩

/-- The complete rendering of everything that is handed over is read back. -/
theorem decode_handed {p : Params} (hglib : p.glib.Documented) (hheader : p.header.Readable)
    {s : State} (h : (probe p).Reachable s) {handed : Handed}
    (hmem : handed ∈ s.history.handed) (msgID : UInt16) (g_time : GTimeVal) (offset : Int32) :
    decode (completeText p.glib handed.element msgID g_time offset) =
      some (messageOf p.header msgID offset handed.element.data) := by
  rcases handed_header h handed hmem with ⟨hbefore, hafter⟩
  have hread : Delimited (handed.element.afterOffset ++ ascii "]\n") ∧
      decodeAfterOffset (handed.element.afterOffset ++ ascii "]\n") =
        some handed.element.data := by
    rcases handed_cases h hmem with ⟨e, he⟩ | hbeat
    · rw [he, data_render hglib]
      refine ⟨?_, decodeAfterOffset_renderOffset hglib e⟩
      simp only [render, renderOffset, lotText, List.append_assoc]
      exact delimited_ascii_append rfl rfl _
    · have hempty : handed.element.afterOffset = [] := by
        simpa [SDElementQueueElement.isData] using hbeat
      rw [data_of_not_isData hbeat, hempty]
      exact ⟨fun b hb => by cases hb; rfl, rfl⟩
  exact decode_completeText hglib hheader.hostname hheader.appName hheader.token hbefore hafter
    hread.1 hread.2 msgID g_time offset

/-- The payload of a hand-over is its message up to 479 bytes. -/
theorem handed_payload {p : Params} {s : State} (h : (probe p).Reachable s) {handed : Handed}
    (hmem : handed ∈ s.history.handed) :
    ∃ offset, messageOffset handed.env.now handed.element.time = some offset ∧
      ∀ call ∈ handed.result.calls, ∀ data, call.payload = some data →
        data = (completeText p.glib handed.element handed.msgID handed.env.g_time offset).take
          479 :=
  sendMessage_payload (sendMessage_of_handed h handed hmem)

/-- A hand-over offers its message, and it does so exactly when a payload was passed to the
transport and was not cut. -/
theorem offered_iff {p : Params} (hglib : p.glib.Documented) (hheader : p.header.Readable)
    {s : State} (h : (probe p).Reachable s) {handed : Handed}
    (hmem : handed ∈ s.history.handed) :
    ∃ offset, messageOffset handed.env.now handed.element.time = some offset ∧
      ∀ message, handed.offered = some message ↔
        (∃ call ∈ handed.result.calls, call.payload.isSome = true) ∧
          (completeText p.glib handed.element handed.msgID handed.env.g_time offset).length ≤
            479 ∧
          message = messageOf p.header handed.msgID offset handed.element.data := by
  rcases handed_payload h hmem with ⟨offset, hoffset, hpayload⟩
  refine ⟨offset, hoffset, ?_⟩
  intro message
  have hcut := decode_take_iff
    (decode_handed hglib hheader h hmem handed.msgID handed.env.g_time offset) 479 message
  cases hfirst : handed.result.calls.findSome? TransportCall.payload with
  | none =>
      rw [Handed.offered, hfirst, Option.bind_none]
      constructor
      · intro hoffered
        cases hoffered
      · rintro ⟨⟨call, hcall, hsome⟩, _⟩
        rw [List.findSome?_eq_none_iff.mp hfirst call hcall] at hsome
        cases hsome
  | some data =>
      rcases List.exists_of_findSome?_eq_some hfirst with ⟨call, hcall, hdata⟩
      rw [Handed.offered, hfirst, Option.bind_some, hpayload call hcall data hdata, hcut]
      constructor
      · intro hoffered
        exact ⟨⟨call, hcall, by rw [hdata]; rfl⟩, hoffered⟩
      · intro hoffered
        exact hoffered.2

/-- What the engine reads from a hand-over is its message, and it reads one exactly when the
transport took the whole message from a call, and `snprintf` did not cut it. -/
theorem read_iff {p : Params} (hglib : p.glib.Documented) (hheader : p.header.Readable)
    {s : State} (h : (probe p).Reachable s) {handed : Handed}
    (hmem : handed ∈ s.history.handed) :
    ∃ offset, messageOffset handed.env.now handed.element.time = some offset ∧
      ∀ message, handed.read = some message ↔
        (∃ call ∈ handed.result.calls, call.payload.isSome = true ∧
          (completeText p.glib handed.element handed.msgID handed.env.g_time offset).length ≤
            handed.env.accepted call) ∧
          (completeText p.glib handed.element handed.msgID handed.env.g_time offset).length ≤
            479 ∧
          message = messageOf p.header handed.msgID offset handed.element.data := by
  rcases handed_payload h hmem with ⟨offset, hoffset, hpayload⟩
  refine ⟨offset, hoffset, ?_⟩
  have hwhole := decode_handed hglib hheader h hmem handed.msgID handed.env.g_time offset
  -- what is read from the bytes that one call took
  have hcall : ∀ call ∈ handed.result.calls, ∀ message,
      (call.payload.map fun payload => payload.take (handed.env.accepted call)).bind decode =
          some message ↔
        call.payload.isSome = true ∧
          (completeText p.glib handed.element handed.msgID handed.env.g_time offset).length ≤
            handed.env.accepted call ∧
          (completeText p.glib handed.element handed.msgID handed.env.g_time offset).length ≤
            479 ∧
          message = messageOf p.header handed.msgID offset handed.element.data := by
    intro call hmemCall message
    cases hdata : call.payload with
    | none => simp
    | some data =>
        rw [hpayload call hmemCall data hdata, Option.map_some, Option.bind_some,
          List.take_take, decode_take_iff hwhole, Nat.le_min, and_assoc]
        simp
  intro message
  constructor
  · intro hread
    rcases List.exists_of_findSome?_eq_some hread with ⟨call, hmemCall, hmessage⟩
    obtain ⟨hsome, htaken, hshort, heq⟩ := (hcall call hmemCall message).mp hmessage
    exact ⟨⟨call, hmemCall, hsome, htaken⟩, hshort, heq⟩
  · rintro ⟨⟨call, hmemCall, hsome, htaken⟩, hshort, heq⟩
    have hone := (hcall call hmemCall message).mpr ⟨hsome, htaken, hshort, heq⟩
    cases hread : handed.read with
    | none =>
        rw [List.findSome?_eq_none_iff.mp hread call hmemCall] at hone
        cases hone
    | some first =>
        -- another call that was read before it would give the same message
        rcases List.exists_of_findSome?_eq_some hread with ⟨other, hother, hfirst⟩
        rw [((hcall other hother first).mp hfirst).2.2.2, heq]

/-- What the engine reads was offered to the transport. -/
theorem read_subset_offered {p : Params} (hglib : p.glib.Documented)
    (hheader : p.header.Readable) {s : State} (h : (probe p).Reachable s) :
    s.history.read ⊆ s.history.offered := by
  intro message hmessage
  obtain ⟨handed, hmem, hread⟩ := List.mem_filterMap.mp hmessage
  refine List.mem_filterMap.mpr ⟨handed, hmem, ?_⟩
  obtain ⟨offset, hoffset, hiff⟩ := read_iff hglib hheader h hmem
  obtain ⟨offset', hoffset', hiff'⟩ := offered_iff hglib hheader h hmem
  obtain rfl : offset = offset' := Option.some.inj (hoffset.symm.trans hoffset')
  obtain ⟨⟨call, hcall, hsome, -⟩, hrest⟩ := (hiff message).mp hread
  exact (hiff' message).mpr ⟨⟨call, hcall, hsome⟩, hrest⟩

/-- The data of what is handed over are those of the first readings collected. -/
theorem handed_data_initial {p : Params} (hglib : p.glib.Documented) {s : State}
    (h : (probe p).Reachable s) :
    s.history.handed.filterMap (fun handed => handed.element.data) <+:
      s.history.pushed.map dataOf := by
  have hrendered := (sent_initial h).filterMap SDElementQueueElement.data
  have hpushed : (s.history.pushed.map (render p.glib p.header)).filterMap
      SDElementQueueElement.data = s.history.pushed.map dataOf := by
    rw [List.filterMap_map, ← List.filterMap_eq_map]
    apply List.filterMap_congr
    intro e _
    exact data_render hglib p.header e
  have hhanded : (s.history.sent.filter SDElementQueueElement.isData).filterMap
      SDElementQueueElement.data =
        s.history.handed.filterMap (fun handed => handed.element.data) := by
    rw [List.filterMap_filter, History.sent, List.filterMap_map]
    apply List.filterMap_congr
    intro handed _
    cases hdata : handed.element.isData with
    | true => simp [hdata]
    | false => simp [hdata, data_of_not_isData hdata]
  rw [hhanded, hpushed] at hrendered
  exact hrendered

/-- Fewer of the same values are a part of them, in the same order. -/
theorem filterMap_sublist {α β : Type} {f g : α → Option β} {l : List α}
    (h : ∀ x ∈ l, f x = none ∨ f x = g x) : (l.filterMap f).Sublist (l.filterMap g) := by
  induction l with
  | nil => exact List.Sublist.refl _
  | cons x l ih =>
      have hrest := ih fun y hy => h y (List.mem_cons_of_mem x hy)
      rcases h x List.mem_cons_self with hnone | hsame
      · rw [List.filterMap_cons_none hnone]
        exact hrest.trans ((List.sublist_cons_self x l).filterMap g)
      · cases hg : g x with
        | none =>
            rw [List.filterMap_cons_none (hsame.trans hg), List.filterMap_cons_none hg]
            exact hrest
        | some y =>
            rw [List.filterMap_cons_some (hsame.trans hg), List.filterMap_cons_some hg]
            exact hrest.cons_cons y

/-- A reading is sent, then a heartbeat in vain, and eleven seconds later another one. -/
def lossyActions : List Action :=
  List.replicate 3 (.addon 0 exampleReading) ++ List.replicate 11 .format ++
    List.replicate 14 (.sender (writingEnv 100 144)) ++
    List.replicate 7 (.sender (refusedEnv 100)) ++
    List.replicate 16 (.sender (writingEnv 111 118))

/-- The header of the unit tests can be read. -/
theorem exampleHeader_readable : exampleHeader.Readable where
  hostname := by decide
  appName := by decide
  token := by decide

end AlertProbe
