import AlertProbe.Model.Threads
import AlertProbe.Transport.Paths

/-!
# Payloads

The queues take texts of up to 9999 bytes, and `sendMessage` prints them into a
buffer of 480 bytes with `snprintf`.  A longer message loses its tail, and with
it the line feed that ends a message on a stream.

Main results:

- Theorem `transmittedWhole_iff`: when a payload is the complete rendering.
- Theorem `sendMessage_of_handed`: the hand-overs of a run are calls of
  `sendMessage`.
- Theorem `payload_whole_iff`: when the payloads of calls and of runs are complete.
- Theorem `long_reading_cut`: a reading whose message loses its end.
-/

namespace AlertProbe

open Foundations

/-- The payload is the complete rendering of the element, and so ends with its line feed. -/
structure TransmittedWhole (glib : GLib) (element : SDElementQueueElement) (msgID : UInt16)
    (g_time : GTimeVal) (offset : Int32) (data : CString) : Prop where
  complete : data = completeText glib element msgID g_time offset
  line_feed : ascii "]\n" <:+ data

/-- Bytes of the six parts of a message that are not fixed. -/
def variableLength (glib : GLib) (element : SDElementQueueElement) (msgID : UInt16)
    (g_time : GTimeVal) (offset : Int32) : Nat :=
  (glib.g_time_val_to_iso8601 g_time).length + element.beforeMsgID.length +
    (decimal msgID.toNat).length + element.afterMsgID.length +
    (decimal offset.toInt).length + element.afterOffset.length

/-- The fixed parts of a message take eleven bytes. -/
theorem completeText_length (glib : GLib) (element : SDElementQueueElement) (msgID : UInt16)
    (g_time : GTimeVal) (offset : Int32) :
    (completeText glib element msgID g_time offset).length =
      variableLength glib element msgID g_time offset + 11 := by
  have hpri : (ascii "<118>1 ").length = 7 := rfl
  have hblank : (ascii " ").length = 1 := rfl
  have hend : (ascii "]\n").length = 2 := rfl
  simp only [completeText, List.length_append, hpri, hblank, hend, variableLength]
  omega

/-- The complete rendering ends with the bracket and the line feed. -/
theorem completeText_suffix (glib : GLib) (element : SDElementQueueElement) (msgID : UInt16)
    (g_time : GTimeVal) (offset : Int32) :
    ascii "]\n" <:+ completeText glib element msgID g_time offset :=
  List.suffix_append _ _

/-- What `snprintf` leaves in `completMsg` is the complete rendering exactly when that is at
most 479 bytes long. -/
theorem transmittedWhole_iff (glib : GLib) (element : SDElementQueueElement) (msgID : UInt16)
    (g_time : GTimeVal) (offset : Int32) :
    TransmittedWhole glib element msgID g_time offset
        (completMsg glib element msgID g_time offset) ↔
      variableLength glib element msgID g_time offset ≤ 468 := by
  have hlength := completeText_length glib element msgID g_time offset
  have hfits := snprintf_eq_self_iff (by decide : 0 < 480)
    (completeText glib element msgID g_time offset)
  constructor
  · intro hwhole
    have hlt := hfits.mp hwhole.complete
    omega
  · intro hshort
    have hcomplete : completMsg glib element msgID g_time offset =
        completeText glib element msgID g_time offset := hfits.mpr (by omega)
    refine ⟨hcomplete, ?_⟩
    rw [hcomplete]
    exact completeText_suffix glib element msgID g_time offset

/-- Every hand-over of a run is a call of `sendMessage` that returned. -/
theorem sendMessage_of_handed {p : Params} {s : State} (h : (probe p).Reachable s) :
    ∀ handed ∈ s.history.handed,
      sendMessage p.glib p.sender handed.element handed.msgID handed.env =
        some handed.result := by
  apply h.invariant (P := fun s => ∀ handed ∈ s.history.handed,
    sendMessage p.glib p.sender handed.element handed.msgID handed.env = some handed.result)
  · intro handed hmem
    cases hmem
  · intro s a s' hall hstep
    rcases (step_cases hstep).handed_cases with hsame | ⟨e, env, result, _, _, hsend, hnew⟩
    · rw [hsame]
      exact hall
    · rw [hnew, List.forall_mem_append, List.forall_mem_singleton]
      exact ⟨hall, hsend⟩

/-- Every payload that a call of `sendMessage` hands to the transport, and every payload of a
run, is the complete rendering of its element exactly when the parts of the message that are
not fixed take at most 468 bytes, so that the complete rendering takes at most 479. -/
theorem payload_whole_iff (p : Params) :
    (∀ element msgID env result, sendMessage p.glib p.sender element msgID env = some result →
      ∃ offset, messageOffset env.now element.time = some offset ∧
        ∀ call ∈ result.calls, ∀ data, call.payload = some data →
          (TransmittedWhole p.glib element msgID env.g_time offset data ↔
            variableLength p.glib element msgID env.g_time offset ≤ 468)) ∧
    (∀ s, (probe p).Reachable s → ∀ handed ∈ s.history.handed,
      ∃ offset, messageOffset handed.env.now handed.element.time = some offset ∧
        ∀ call ∈ handed.result.calls, ∀ data, call.payload = some data →
          (TransmittedWhole p.glib handed.element handed.msgID handed.env.g_time offset data ↔
            variableLength p.glib handed.element handed.msgID handed.env.g_time offset ≤
              468)) := by
  have hcalls : ∀ element msgID env result,
      sendMessage p.glib p.sender element msgID env = some result →
        ∃ offset, messageOffset env.now element.time = some offset ∧
          ∀ call ∈ result.calls, ∀ data, call.payload = some data →
            (TransmittedWhole p.glib element msgID env.g_time offset data ↔
              variableLength p.glib element msgID env.g_time offset ≤ 468) := by
    intro element msgID env result h
    rcases sendMessage_payload h with ⟨offset, hoffset, hpayload⟩
    refine ⟨offset, hoffset, ?_⟩
    intro call hcall data hdata
    rw [hpayload call hcall data hdata]
    exact transmittedWhole_iff p.glib element msgID env.g_time offset
  refine ⟨hcalls, ?_⟩
  intro s hs handed hmem
  exact hcalls _ _ _ _ (sendMessage_of_handed hs handed hmem)

/-- The message of a short reading is handed over whole. -/
theorem payload_whole_iff_reading :
    ∃ result data,
      sendMessage exampleGLib exampleParams.sender
        (render exampleGLib exampleHeader exampleReading) 1 (exampleEnv 100) = some result ∧
      TransportCall.write data ∈ result.calls ∧
      TransmittedWhole exampleGLib (render exampleGLib exampleHeader exampleReading) 1
        ⟨0, 0⟩ 93 data := by
  refine ⟨_, _, rfl, .tail _ (.head _), ?_⟩
  rcases (payload_whole_iff exampleParams).1
    (render exampleGLib exampleHeader exampleReading) 1 (exampleEnv 100) _ rfl with
    ⟨offset, hoffset, hwhole⟩
  have hninetyThree : offset = 93 := by
    have hreading : messageOffset 100 7 = some 93 := by decide
    exact Option.some.inj (hoffset.symm.trans hreading)
  subst hninetyThree
  exact (hwhole _ (.tail _ (.head _)) _ rfl).mpr (by decide)

/-- `popCollectQueue` takes the long reading, and `sendMessage` hands over a payload that is
not its complete rendering: it has 479 bytes and no line feed at its end. -/
theorem long_reading_cut :
    ∃ element result data,
      popCollectQueue exampleGLib exampleHeader [longReading] [] = some ([], [element]) ∧
      sendMessage exampleGLib exampleParams.sender element 1 (exampleEnv 100) = some result ∧
      TransportCall.write data ∈ result.calls ∧
      data.length = 479 ∧ ¬ ascii "]\n" <:+ data ∧
      ¬ TransmittedWhole exampleGLib element 1 ⟨0, 0⟩ 93 data := by
  refine ⟨render exampleGLib exampleHeader longReading, _, _, ?_, rfl, .tail _ (.head _),
    ?_, ?_, ?_⟩
  · decide +kernel
  · decide +kernel
  · decide +kernel
  · intro hwhole
    have hshort := (transmittedWhole_iff exampleGLib _ 1 ⟨0, 0⟩ 93).mp hwhole
    revert hshort
    decide +kernel

end AlertProbe
