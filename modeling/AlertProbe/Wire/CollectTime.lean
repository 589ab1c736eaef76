import AlertProbe.Pipeline.Fifo
import AlertProbe.Wire.Payload

/-!
# Collect times on the wire

A message carries a TIMESTAMP and an offset, and the collect time of its reading is
their difference.  `sendMessage` takes the offset from `time` and the TIMESTAMP from
`g_get_current_time`, and a second may begin in between.

`timesOf` reads both from a payload, given the text between them; how the TIMESTAMP is
turned into seconds is the parameter `seconds`.

Main results:

- Theorem `timesOf_append`: what is read from a cut message is read from the whole one.
- Theorem `recovers_iff`: the messages that give the collect time back.
- Theorem `collect_time_recovered_iff`: the hand-overs of a run that do so.
- Theorem `second_begins_between_clock_reads`: a reading that seems one second younger.
-/

namespace AlertProbe

open Foundations

/-! ## Reading a message -/

/-- The text between the TIMESTAMP and the offset, less a blank in front of it. -/
def betweenText (element : SDElementQueueElement) (msgID : UInt16) : CString :=
  element.beforeMsgID ++ decimal msgID.toNat ++ ascii " " ++ element.afterMsgID

/-- The message up to its offset. -/
def headText (glib : GLib) (element : SDElementQueueElement) (msgID : UInt16)
    (g_time : GTimeVal) (offset : Int32) : CString :=
  ascii "<118>1 " ++ (glib.g_time_val_to_iso8601 g_time ++ charByte ' ' ::
    (betweenText element msgID ++ decimal offset.toInt))

/-- Read the TIMESTAMP and the offset; a message that ends with its offset may have lost some
of its digits. -/
def timesOf (element : SDElementQueueElement) (msgID : UInt16) (payload : CString) :
    Option (CString × Int) := do
  let input ← literal (ascii "<118>1 ") payload
  let (timestamp, input) ← field (charByte ' ') input
  let input ← literal (betweenText element msgID) input
  let (offset, input) ← integer input
  if input = [] then none else some (timestamp, offset)

/-- The TIMESTAMP of a payload, in whole seconds, less its offset is the given time. -/
def Recovers (seconds : CString → Option Int) (element : SDElementQueueElement)
    (msgID : UInt16) (payload : CString) (collectTime : Time) : Prop :=
  ∃ timestamp offset sent, timesOf element msgID payload = some (timestamp, offset) ∧
    seconds timestamp = some sent ∧ sent - offset = collectTime

/-- What is read from a cut message is read from the whole one. -/
theorem timesOf_append {element : SDElementQueueElement} {msgID : UInt16} {payload : CString}
    {times : CString × Int} (h : timesOf element msgID payload = some times) (more : CString) :
    timesOf element msgID (payload ++ more) = some times := by
  simp only [timesOf, Option.bind_eq_bind, Option.bind_eq_some_iff] at h
  obtain ⟨input, hpri, ⟨timestamp, input'⟩, hfield, input'', hbetween, ⟨offset, rest⟩, hoffset,
    hend⟩ := h
  by_cases hrest : rest = []
  · rw [if_pos hrest] at hend
    cases hend
  · rw [if_neg hrest] at hend
    have hmore : rest ++ more ≠ [] := List.append_ne_nil_of_left_ne_nil hrest more
    simp only [timesOf, literal_append_right hpri, field_append_right hfield,
      literal_append_right hbetween, integer_append_right hoffset hrest, Option.bind_eq_bind,
      Option.bind_some, if_neg hmore]
    exact hend

/-- The rest of a message behind its offset is not empty and ends the offset. -/
theorem completeText_eq (glib : GLib) (element : SDElementQueueElement) (msgID : UInt16)
    (g_time : GTimeVal) (offset : Int32) :
    completeText glib element msgID g_time offset =
      headText glib element msgID g_time offset ++ (element.afterOffset ++ ascii "]\n") := by
  have hblank : ∀ rest, ascii " " ++ rest = charByte ' ' :: rest := fun _ => rfl
  simp only [completeText, headText, betweenText, List.append_assoc, List.cons_append, hblank]

/-- The times of a message with anything behind the offset that ends a number. -/
theorem timesOf_headText {glib : GLib} (hglib : glib.Documented)
    (element : SDElementQueueElement) (msgID : UInt16) (g_time : GTimeVal) (offset : Int32)
    {rest : CString} (hrest : Delimited rest) :
    timesOf element msgID (headText glib element msgID g_time offset ++ rest) =
      if rest = [] then none
      else some (glib.g_time_val_to_iso8601 g_time, offset.toInt) := by
  have htime := hglib.iso8601_no_space g_time
  have htext : headText glib element msgID g_time offset ++ rest =
      ascii "<118>1 " ++ (glib.g_time_val_to_iso8601 g_time ++ charByte ' ' ::
        (betweenText element msgID ++ (decimal offset.toInt ++ rest))) := by
    simp only [headText, List.append_assoc, List.cons_append]
  rw [htext]
  simp only [timesOf, literal_append, field_append htime, integer_decimal _ hrest,
    Option.bind_eq_bind, Option.bind_some]

/-- The times can be read from what `snprintf` leaves exactly when it leaves the offset and a
byte behind it; and they are those of the message. -/
theorem timesOf_completMsg {glib : GLib} (hglib : glib.Documented)
    {element : SDElementQueueElement} (hdelimited : Delimited (element.afterOffset ++ ascii "]\n"))
    (msgID : UInt16) (g_time : GTimeVal) (offset : Int32) (times : CString × Int) :
    timesOf element msgID (completMsg glib element msgID g_time offset) = some times ↔
      (headText glib element msgID g_time offset).length < 479 ∧
        times = (glib.g_time_val_to_iso8601 g_time, offset.toInt) := by
  have hbehind : element.afterOffset ++ ascii "]\n" ≠ [] := by
    intro hnil
    have hlength := congrArg List.length hnil
    have hend : (ascii "]\n").length = 2 := rfl
    rw [List.length_append, hend, List.length_nil] at hlength
    omega
  have hwhole : timesOf element msgID (completeText glib element msgID g_time offset) =
      some (glib.g_time_val_to_iso8601 g_time, offset.toInt) := by
    rw [completeText_eq, timesOf_headText hglib element msgID g_time offset hdelimited,
      if_neg hbehind]
  have hcut : completMsg glib element msgID g_time offset =
      (completeText glib element msgID g_time offset).take 479 := rfl
  constructor
  · intro h
    have hsame := timesOf_append h ((completeText glib element msgID g_time offset).drop 479)
    rw [hcut, List.take_append_drop, hwhole, Option.some.injEq] at hsame
    refine ⟨?_, hsame.symm⟩
    by_contra hlong
    -- What is left is a part of the head, and the head alone ends with its offset.
    have hpart : completMsg glib element msgID g_time offset =
        (headText glib element msgID g_time offset).take 479 := by
      rw [hcut, completeText_eq, List.take_append_of_le_length (not_lt.mp hlong)]
    rw [hpart] at h
    have hhead := timesOf_append h ((headText glib element msgID g_time offset).drop 479)
    rw [List.take_append_drop] at hhead
    have hend : Delimited [] := fun b hb => by cases hb
    have hnone := timesOf_headText hglib element msgID g_time offset hend
    rw [List.append_nil, hhead, if_pos rfl] at hnone
    cases hnone
  · intro h
    obtain ⟨hshort, rfl⟩ := h
    have hpart : completMsg glib element msgID g_time offset =
        headText glib element msgID g_time offset ++ (element.afterOffset ++ ascii "]\n").take
          (479 - (headText glib element msgID g_time offset).length) := by
      rw [hcut, completeText_eq, List.take_append, List.take_of_length_le (by omega)]
    obtain ⟨b, rest, hrest⟩ := List.exists_cons_of_ne_nil hbehind
    obtain ⟨k, hk⟩ : ∃ k, 479 - (headText glib element msgID g_time offset).length = k + 1 :=
      ⟨478 - (headText glib element msgID g_time offset).length, by omega⟩
    rw [hrest] at hdelimited
    rw [hpart, hrest, hk, List.take_succ_cons, timesOf_headText hglib]
    · rw [if_neg (List.cons_ne_nil _ _)]
    · exact (delimited_cons _ _).mpr ((delimited_cons _ _).mp hdelimited)

/-- An offset that fits into an `int` is the age in whole seconds. -/
theorem messageOffset_toInt {now collectTime : Time} {offset : Int32}
    (h : messageOffset now collectTime = some offset) : offset.toInt = now - collectTime := by
  unfold messageOffset at h
  split at h
  · rename_i hrange
    rw [Option.some.injEq] at h
    rw [← h]
    exact Int32.toInt_ofInt_of_le hrange.1 hrange.2
  · cases h

/-- A message gives the collect time back exactly when both clocks were read in the same second
and the message was not cut before the end of its offset. -/
theorem recovers_iff {glib : GLib} (hglib : glib.Documented) {seconds : CString → Option Int}
    {element : SDElementQueueElement} (hdelimited : Delimited (element.afterOffset ++ ascii "]\n"))
    {msgID : UInt16} {g_time : GTimeVal} {now : Time} {offset : Int32}
    (hseconds : seconds (glib.g_time_val_to_iso8601 g_time) = some g_time.tv_sec)
    (hoffset : messageOffset now element.time = some offset) :
    Recovers seconds element msgID (completMsg glib element msgID g_time offset) element.time ↔
      g_time.tv_sec = now ∧ (headText glib element msgID g_time offset).length < 479 := by
  have hage := messageOffset_toInt hoffset
  constructor
  · intro h
    obtain ⟨timestamp, shown, sent, htimes, hsent, htime⟩ := h
    obtain ⟨hshort, heq⟩ :=
      (timesOf_completMsg hglib hdelimited msgID g_time offset _).mp htimes
    obtain ⟨rfl, rfl⟩ := Prod.mk.inj heq
    rw [hseconds, Option.some.injEq] at hsent
    refine ⟨?_, hshort⟩
    omega
  · intro h
    obtain ⟨hsecond, hshort⟩ := h
    refine ⟨_, _, _, (timesOf_completMsg hglib hdelimited msgID g_time offset _).mpr
      ⟨hshort, rfl⟩, hseconds, ?_⟩
    omega

/-! ## Hand-overs of a run -/

/-- The calls of `sendMessage` for readings, oldest first. -/
def History.dataHanded (history : History) : List Handed :=
  history.handed.filter fun handed => handed.element.isData

/-- The readings are handed over in the order in which they were collected, each with its collect
time. -/
theorem dataHanded_getElem? {p : Params} {s : State} (h : (probe p).Reachable s) {k : Nat}
    {handed : Handed} (hk : s.history.dataHanded[k]? = some handed) :
    ∃ e, s.history.pushed[k]? = some e ∧ handed.element = render p.glib p.header e := by
  obtain ⟨rest, hrest⟩ := sent_initial h
  have hsent : s.history.sent.filter SDElementQueueElement.isData =
      s.history.dataHanded.map Handed.element := by
    rw [History.sent, List.filter_map]
    rfl
  rw [hsent] at hrest
  have helement : (s.history.dataHanded.map Handed.element ++ rest)[k]? = some handed.element := by
    have hlt : k < (s.history.dataHanded.map Handed.element).length := by
      rw [List.length_map]
      exact (List.getElem?_eq_some_iff.mp hk).1
    rw [List.getElem?_append_left hlt, List.getElem?_map, hk, Option.map_some]
  rw [hrest, List.getElem?_map, Option.map_eq_some_iff] at helement
  obtain ⟨e, he, hrender⟩ := helement
  exact ⟨e, he, hrender.symm⟩

/-- In every run the hand-overs of readings are those of the readings collected, in order, and a
payload gives back the collect time that the addon stamped exactly when `sendMessage` read both
clocks in the same second and did not cut the message before the end of its offset. -/
theorem collect_time_recovered_iff {p : Params} (hglib : p.glib.Documented) {s : State}
    (h : (probe p).Reachable s) :
    ∀ (seconds : CString → Option Int) (k : Nat) (handed : Handed),
      s.history.dataHanded[k]? = some handed →
        seconds (p.glib.g_time_val_to_iso8601 handed.env.g_time) =
          some handed.env.g_time.tv_sec →
        ∃ e offset, s.history.pushed[k]? = some e ∧
          handed.element = render p.glib p.header e ∧
          messageOffset handed.env.now e.time = some offset ∧
          ∀ call ∈ handed.result.calls, ∀ payload, call.payload = some payload →
            (Recovers seconds handed.element handed.msgID payload e.time ↔
              handed.env.g_time.tv_sec = handed.env.now ∧
                (headText p.glib handed.element handed.msgID handed.env.g_time offset).length <
                  479) := by
  intro seconds k handed hk hseconds
  obtain ⟨e, he, hrender⟩ := dataHanded_getElem? h hk
  have hmem : handed ∈ s.history.handed :=
    (List.mem_filter.mp (List.mem_of_getElem? hk)).1
  obtain ⟨offset, hoffset, hpayload⟩ := sendMessage_payload (sendMessage_of_handed h handed hmem)
  have htime : handed.element.time = e.time := by
    rw [hrender, render_time]
  refine ⟨e, offset, he, hrender, ?_, ?_⟩
  · rw [← htime]
    exact hoffset
  · intro call hcall payload hdata
    have hdelimited : Delimited (handed.element.afterOffset ++ ascii "]\n") := by
      have hblank : ascii " lotNum=" = charByte ' ' :: ascii "lotNum=" := rfl
      rw [hrender]
      simp only [render, renderOffset, lotText, hblank, List.append_assoc, List.cons_append]
      exact (delimited_cons _ _).mpr rfl
    rw [hpayload call hcall payload hdata, ← htime]
    exact recovers_iff hglib hdelimited hseconds hoffset

/-! ## Two runs -/

/-- The TIMESTAMP of 100 seconds behind the epoch. -/
def earlyTimestamp : CString :=
  ascii "1970-01-01T00:01:40Z"

/-- The TIMESTAMP of 101 seconds behind the epoch. -/
def lateTimestamp : CString :=
  ascii "1970-01-01T00:01:41Z"

/-- A probe with a GLib that knows these two. -/
def clockParams : Params :=
  { exampleParams with
    glib :=
      { exampleGLib with
        g_time_val_to_iso8601 := fun g_time =>
          if g_time.tv_sec = 101 then lateTimestamp else earlyTimestamp } }

/-- It has the documented behaviour. -/
theorem clockParams_documented : clockParams.glib.Documented where
  escapes := escapes_escapeBytes
  iso8601_no_space g_time := by
    change charByte ' ' ∉ if g_time.tv_sec = 101 then lateTimestamp else earlyTimestamp
    split <;> decide

/-- A reader that knows them too. -/
def clockSeconds (timestamp : CString) : Option Int :=
  if timestamp = lateTimestamp then some 101
  else if timestamp = earlyTimestamp then some 100
  else none

/-- One reading is collected, formatted, and handed over after 100 seconds, while
`g_get_current_time` is called at the given second. -/
def clockRun (tv_sec : Int) : List Action :=
  List.replicate 3 (Action.addon 0 exampleReading) ++ List.replicate 11 Action.format ++
    List.replicate 12 (Action.sender { exampleEnv 100 with g_time := ⟨tv_sec, 0⟩ })

/-- The hand-over of that run. -/
def clockHanded (tv_sec : Int) : Handed :=
  let element := render clockParams.glib exampleHeader exampleReading
  ⟨element, 1, { exampleEnv 100 with g_time := ⟨tv_sec, 0⟩ },
    ⟨exitSuccess,
      [.connectToUri (ascii "simple://127.0.0.1") 443,
        .write (completMsg clockParams.glib element 1 ⟨tv_sec, 0⟩ 93), .unrefConnection]⟩⟩

/-- Within one second the collect time comes back. -/
theorem collect_time_recovered_iff_second :
    ∃ s payload, (probe clockParams).Reachable s ∧ s.history.dataHanded = [clockHanded 100] ∧
      TransportCall.write payload ∈ (clockHanded 100).result.calls ∧
      Recovers clockSeconds (clockHanded 100).element 1 payload 7 := by
  have hrun : (probe clockParams).EndsIn State.start (clockRun 100)
      (fun s => s.history.pushed = [exampleReading] ∧
        s.history.dataHanded = [clockHanded 100]) := by
    decide +kernel
  obtain ⟨s, hs, hpushed, hhanded⟩ := Machine.exists_reachable_of_endsIn hrun
  obtain ⟨e, offset, he, _, hoffset, hall⟩ := collect_time_recovered_iff clockParams_documented hs
    clockSeconds 0 (clockHanded 100) (by rw [hhanded]; rfl) (by decide)
  rw [hpushed] at he
  cases he
  have hninetyThree : messageOffset 100 7 = some 93 := by decide
  have hsame : (93 : Int32) = offset := Option.some.inj (hninetyThree.symm.trans hoffset)
  refine ⟨s, _, hs, hhanded, .tail _ (.head _), ?_⟩
  apply (hall _ (.tail _ (.head _)) _ rfl).mpr
  rw [← hsame]
  decide +kernel

/-- When a second begins between the two clock reads, the collect time seems one second later. -/
theorem second_begins_between_clock_reads :
    ∃ s payload, (probe clockParams).Reachable s ∧ s.history.pushed = [exampleReading] ∧
      exampleReading.time = 7 ∧ s.history.dataHanded = [clockHanded 101] ∧
      TransportCall.write payload ∈ (clockHanded 101).result.calls ∧
      Recovers clockSeconds (clockHanded 101).element 1 payload 8 ∧
      ¬ Recovers clockSeconds (clockHanded 101).element 1 payload 7 := by
  have hrun : (probe clockParams).EndsIn State.start (clockRun 101)
      (fun s => s.history.pushed = [exampleReading] ∧
        s.history.dataHanded = [clockHanded 101]) := by
    decide +kernel
  obtain ⟨s, hs, hpushed, hhanded⟩ := Machine.exists_reachable_of_endsIn hrun
  have htimes : timesOf (clockHanded 101).element 1
      (completMsg clockParams.glib (clockHanded 101).element 1 ⟨101, 0⟩ 93) =
        some (lateTimestamp, 93) := by
    decide +kernel
  have hlate : clockSeconds lateTimestamp = some 101 := by decide
  refine ⟨s, _, hs, hpushed, rfl, hhanded, .tail _ (.head _), ⟨_, _, _, htimes, hlate, rfl⟩, ?_⟩
  intro h
  obtain ⟨timestamp, offset, sent, hread, hsent, htime⟩ := h
  have heq : some (lateTimestamp, (93 : Int)) = some (timestamp, offset) := htimes.symm.trans hread
  rw [Option.some.injEq, Prod.mk.injEq] at heq
  rw [← heq.1, hlate, Option.some.injEq] at hsent
  rw [← heq.2, ← hsent] at htime
  revert htime
  decide

end AlertProbe
