import AlertProbe.Foundations.Loop
import AlertProbe.Model.Data

/-!
# The format thread's functions

`pushSDElementQueue` and `popCollectQueue` of `format.c`.  A result `none` is a
write behind the end of a buffer, which is undefined behaviour.  `render` is the
text that the functions print when nothing overflows.  `valueLoop` is the value
loop with its 16-bit index and the values that it frees, buffers aside.

Main results:

- Theorem `formatElement_eq_some`: the value loop prints the rendering of the
  reading, exactly when the rendering and its NUL fit into `afterOffset`.
- Theorem `valuesLength_lt_of_formatElement`: a reading that fits has fewer than
  2000 values, so the 16-bit index of the loop does not wrap.
- Theorem `popCollectQueue_eq_some`: what one call moves between the queues.
-/

namespace AlertProbe

open Foundations

/-! ## pushSDElementQueue -/

/-- The text printed into `new->beforeMsgID`. -/
def beforeMsgIDText (header : SDElementHeader) : CString :=
  header.hostname ++ ascii " " ++ header.appName ++ ascii " " ++
    decimal header.pID.toInt ++ ascii " ID"

/-- The text printed into `new->afterMsgID`; `%d` shows the unsigned probe id as an `int`. -/
def afterMsgIDText (header : SDElementHeader) : CString :=
  ascii "[prop@40311 ver=" ++ decimal header.transportMsgVersion.toNat ++
    ascii " probe=" ++ decimal header.probeID.toInt32.toInt ++
    ascii " token=\"" ++ header.token ++ ascii "\"][res1@40311 offset="

/-- The element `new` that `pushSDElementQueue` fills in before it takes the mutex. -/
def newSDElement (header : SDElementHeader) (afterOffset : CString) (time : Time) :
    Option SDElementQueueElement := do
  let beforeMsgID ← sprintf 10000 (beforeMsgIDText header)
  let afterMsgID ← sprintf 10000 (afterMsgIDText header)
  some { beforeMsgID, afterMsgID, afterOffset, time }

/-- `pushSDElementQueue`: link a new element behind the last one. -/
def pushSDElementQueue (header : SDElementHeader) (queue : List SDElementQueueElement)
    (afterOffset : CString) (time : Time) : Option (List SDElementQueueElement) := do
  let new ← newSDElement header afterOffset time
  some (queue ++ [new])

/-! ## popCollectQueue -/

/-- The text printed into `afterOffsetTmp` for an escaped value. -/
def encodedText (id : Int32) (url_encoded : CString) : CString :=
  ascii " " ++ decimal id.toInt ++ ascii "=\"" ++ url_encoded ++ ascii "\""

/-- The text printed into `afterOffsetTmp` for one value. -/
def valueText (glib : GLib) (id : Int32) (value : CString) : CString :=
  ascii " " ++ decimal id.toInt ++ ascii "=\"" ++ glib.g_uri_escape_string value ++ ascii "\""

/-- The text printed into `afterOffset` before the loop. -/
def lotText (e : CollectQueueElement) : CString :=
  ascii " lotNum=" ++ decimal e.lotNum.toInt ++ ascii " lineNum=" ++ decimal e.lineNum.toInt

/-- The loop over the values: print each one and append it to `afterOffset`. -/
def appendValues (glib : GLib) (afterOffset : CString) :
    List (Int32 × CString) → Option CString
  | [] => some afterOffset
  | (id, value) :: rest => do
      let afterOffsetTmp ← sprintf 10000 (valueText glib id value)
      let afterOffset ← strcat 10000 afterOffset afterOffsetTmp
      appendValues glib afterOffset rest

/-- The text that `popCollectQueue` builds from a reading. -/
def formatElement (glib : GLib) (e : CollectQueueElement) : Option CString := do
  let afterOffset ← sprintf 10000 (lotText e)
  appendValues glib afterOffset (e.idsIDA.zip e.values)

/-- `popCollectQueue`: move the first reading to the end of the SD-Element queue. -/
def popCollectQueue (glib : GLib) (header : SDElementHeader)
    (collectQueue : List CollectQueueElement) (sdElementQueue : List SDElementQueueElement) :
    Option (List CollectQueueElement × List SDElementQueueElement) :=
  match collectQueue with
  | [] => some ([], sdElementQueue)
  | popedElement :: next => do
      let afterOffset ← formatElement glib popedElement
      let sdElementQueue ←
        pushSDElementQueue header sdElementQueue afterOffset popedElement.time
      some (next, sdElementQueue)

/-! ## The index of the value loop -/

/-- What one iteration reads and then frees: the index, the id and the value, which is NULL
when it has been freed before. -/
structure Visit where
  index : Nat
  id : Int32
  value : Option CString
deriving DecidableEq, Repr

/-- The index and the text of the loop, the array `values` with NULL where an entry has been
freed, and the visits made. -/
structure ValueLoopState where
  i : UInt16
  values : List (Option CString)
  afterOffset : CString
  visits : List Visit
deriving DecidableEq, Repr

/-- Before the first iteration. -/
def CollectQueueElement.startValueLoop (e : CollectQueueElement) : ValueLoopState where
  i := 0
  values := e.values.map some
  afterOffset := lotText e
  visits := []

/-- The text that `%s` prints for an escaped value.  `g_uri_escape_string` returns NULL for a
NULL value, and `nullText` is what is printed for that, if that is defined. -/
def escapedText (glib : GLib) (nullText : Option CString) : Option CString → Option CString
  | some value => some (glib.g_uri_escape_string value)
  | none => nullText

/-- The body of the loop at its index; undefined when an array has no such entry. -/
def visitValue (glib : GLib) (nullText : Option CString) (e : CollectQueueElement)
    (s : ValueLoopState) : Option ValueLoopState := do
  let id ← e.idsIDA[s.i.toNat]?
  let value ← s.values[s.i.toNat]?
  let url_encoded ← escapedText glib nullText value
  some {
    i := s.i + 1
    values := s.values.set s.i.toNat none
    afterOffset := s.afterOffset ++ encodedText id url_encoded
    visits := s.visits ++ [⟨s.i.toNat, id, value⟩] }

/-- `for (i = 0; i < popedElement->valuesLength; i++)`. -/
def valueLoop (glib : GLib) (nullText : Option CString) (e : CollectQueueElement) :
    Loop ValueLoopState where
  guard s := s.i.toNat < e.valuesLength
  body := visitValue glib nullText e

/-! ## The rendering of a reading -/

/-- What the loop prints for a list of values, buffers aside. -/
def renderValues (glib : GLib) (values : List (Int32 × CString)) : CString :=
  values.flatMap fun p => valueText glib p.1 p.2

/-- What `popCollectQueue` prints for a reading, buffers aside. -/
def renderOffset (glib : GLib) (e : CollectQueueElement) : CString :=
  lotText e ++ renderValues glib (e.idsIDA.zip e.values)

/-- The element of the SD-Element queue that stands for a reading, buffers aside. -/
def render (glib : GLib) (header : SDElementHeader) (e : CollectQueueElement) :
    SDElementQueueElement where
  beforeMsgID := beforeMsgIDText header
  afterMsgID := afterMsgIDText header
  afterOffset := renderOffset glib e
  time := e.time

/-- The element that a heartbeat puts on the SD-Element queue, buffers aside. -/
def renderHeartBeat (header : SDElementHeader) (time : Time) : SDElementQueueElement where
  beforeMsgID := beforeMsgIDText header
  afterMsgID := afterMsgIDText header
  afterOffset := ascii ""
  time := time

@[simp]
theorem render_time (glib : GLib) (header : SDElementHeader) (e : CollectQueueElement) :
    (render glib header e).time = e.time :=
  rfl

/-- A rendered reading is not a heartbeat. -/
@[simp]
theorem render_isData (glib : GLib) (header : SDElementHeader) (e : CollectQueueElement) :
    (render glib header e).isData = true := by
  have hlot : ascii " lotNum=" = charByte ' ' :: ascii "lotNum=" := rfl
  simp [SDElementQueueElement.isData, render, renderOffset, lotText, hlot]

/-- A heartbeat is not data. -/
@[simp]
theorem renderHeartBeat_isData (header : SDElementHeader) (time : Time) :
    (renderHeartBeat header time).isData = false :=
  rfl

/-! ## What the functions print -/

/-- The element is filled in with the given offset text and time, exactly when both header
texts fit. -/
theorem newSDElement_eq_some {header : SDElementHeader} {afterOffset : CString} {time : Time}
    {new : SDElementQueueElement} :
    newSDElement header afterOffset time = some new ↔
      new = ⟨beforeMsgIDText header, afterMsgIDText header, afterOffset, time⟩ ∧
        (beforeMsgIDText header).length < 10000 ∧ (afterMsgIDText header).length < 10000 := by
  constructor
  · intro h
    simp only [newSDElement, Option.bind_eq_bind, Option.bind_eq_some_iff, sprintf_eq_some,
      Option.some.injEq] at h
    rcases h with ⟨_, ⟨rfl, hbefore⟩, _, ⟨rfl, hafter⟩, hnew⟩
    exact ⟨hnew.symm, hbefore, hafter⟩
  · intro h
    rcases h with ⟨rfl, hbefore, hafter⟩
    simp [newSDElement, sprintf, hbefore, hafter]

/-- A heartbeat element, when it can be filled in. -/
theorem newSDElement_heartBeat {header : SDElementHeader} {time : Time}
    {new : SDElementQueueElement} (h : newSDElement header (ascii "") time = some new) :
    new = renderHeartBeat header time :=
  (newSDElement_eq_some.mp h).1

/-- The loop prints the values behind what is already there, exactly when all of it fits. -/
theorem appendValues_eq_some {glib : GLib} {afterOffset text : CString}
    {values : List (Int32 × CString)} (hfits : afterOffset.length < 10000) :
    appendValues glib afterOffset values = some text ↔
      text = afterOffset ++ renderValues glib values ∧
        (afterOffset ++ renderValues glib values).length < 10000 := by
  induction values generalizing afterOffset with
  | nil =>
      simp only [appendValues, renderValues, List.flatMap_nil, List.append_nil,
        Option.some.injEq]
      constructor
      · intro h
        exact ⟨h.symm, hfits⟩
      · intro h
        exact h.1.symm
  | cons p values ih =>
      rcases p with ⟨id, value⟩
      have hcons : afterOffset ++ renderValues glib ((id, value) :: values) =
          (afterOffset ++ valueText glib id value) ++ renderValues glib values := by
        simp [renderValues]
      rw [hcons]
      simp only [appendValues, Option.bind_eq_bind, Option.bind_eq_some_iff, sprintf_eq_some,
        strcat_eq_some]
      constructor
      · intro h
        rcases h with ⟨_, ⟨rfl, _⟩, _, ⟨rfl, hacc⟩, hrest⟩
        exact (ih hacc).mp hrest
      · intro h
        rcases h with ⟨htext, hlen⟩
        -- every intermediate text is a part of the final one
        have hacc : (afterOffset ++ valueText glib id value).length < 10000 := by
          rw [List.length_append] at hlen
          omega
        have htmp : (valueText glib id value).length < 10000 := by
          rw [List.length_append] at hacc
          omega
        exact ⟨_, ⟨rfl, htmp⟩, _, ⟨rfl, hacc⟩, (ih hacc).mpr ⟨htext, hlen⟩⟩

/-- `popCollectQueue` prints the rendering of the reading, exactly when it fits. -/
theorem formatElement_eq_some {glib : GLib} {e : CollectQueueElement} {text : CString} :
    formatElement glib e = some text ↔
      text = renderOffset glib e ∧ (renderOffset glib e).length < 10000 := by
  simp only [formatElement, Option.bind_eq_bind, Option.bind_eq_some_iff, sprintf_eq_some]
  constructor
  · intro h
    rcases h with ⟨_, ⟨rfl, hlot⟩, hrest⟩
    exact (appendValues_eq_some hlot).mp hrest
  · intro h
    have hlot : (lotText e).length < 10000 := by
      have hlen := h.2
      rw [renderOffset, List.length_append] at hlen
      omega
    exact ⟨_, ⟨rfl, hlot⟩, (appendValues_eq_some hlot).mpr h⟩

example : formatElement exampleGLib exampleReading =
    some (ascii " lotNum=6 lineNum=5 1=\"a\"") := by
  decide

/-- Every value takes at least five bytes: blank, digit, equals sign and two quotes. -/
theorem five_le_valueText_length (glib : GLib) (id : Int32) (value : CString) :
    5 ≤ (valueText glib id value).length := by
  have hdigits : 1 ≤ (decimal id.toInt).length := by
    have hnat := List.length_pos_of_ne_nil (decimalNat_ne_nil id.toInt.natAbs)
    unfold decimal
    split
    · rw [List.length_append]
      omega
    · omega
  have hblank : (ascii " ").length = 1 := rfl
  have hquote : (ascii "\"").length = 1 := rfl
  have hequals : (ascii "=\"").length = 2 := rfl
  simp only [valueText, List.length_append, hblank, hquote, hequals]
  omega

/-- The rendering of a list of values is at least five times as long as the list. -/
theorem renderValues_length (glib : GLib) (values : List (Int32 × CString)) :
    5 * values.length ≤ (renderValues glib values).length := by
  induction values with
  | nil => simp
  | cons p values ih =>
      have hvalue := five_le_valueText_length glib p.1 p.2
      simp only [renderValues, List.flatMap_cons, List.length_append, List.length_cons] at ih ⊢
      omega

/-- A reading that `popCollectQueue` formats without overflow has fewer than 2000 values, so
the loop's `unsigned short` index counts them all without wrapping. -/
theorem valuesLength_lt_of_formatElement {glib : GLib} {e : CollectQueueElement}
    {text : CString} (h : formatElement glib e = some text) : e.valuesLength < 2000 := by
  have hlen := (formatElement_eq_some.mp h).2
  have hvalues := renderValues_length glib (e.idsIDA.zip e.values)
  rw [renderOffset, List.length_append] at hlen
  rw [List.length_zip, e.length_eq, Nat.min_self] at hvalues
  unfold CollectQueueElement.valuesLength
  omega

/-- What `popCollectQueue` and `pushSDElementQueue` make of a reading is its rendering. -/
theorem newSDElement_formatElement {glib : GLib} {header : SDElementHeader}
    {e : CollectQueueElement} {text : CString} {new : SDElementQueueElement}
    (htext : formatElement glib e = some text)
    (hnew : newSDElement header text e.time = some new) : new = render glib header e := by
  rw [(newSDElement_eq_some.mp hnew).1, (formatElement_eq_some.mp htext).1]
  rfl

/-- One call of `popCollectQueue` on a nonempty queue moves the rendering of the first
reading, exactly when its texts fit. -/
theorem popCollectQueue_eq_some {glib : GLib} {header : SDElementHeader}
    {e : CollectQueueElement} {next : List CollectQueueElement}
    {queue : List SDElementQueueElement}
    {out : List CollectQueueElement × List SDElementQueueElement} :
    popCollectQueue glib header (e :: next) queue = some out ↔
      out = (next, queue ++ [render glib header e]) ∧
        (renderOffset glib e).length < 10000 ∧
        (beforeMsgIDText header).length < 10000 ∧ (afterMsgIDText header).length < 10000 := by
  simp only [popCollectQueue, pushSDElementQueue, Option.bind_eq_bind,
    Option.bind_eq_some_iff, formatElement_eq_some, newSDElement_eq_some, Option.some.injEq]
  constructor
  · intro h
    rcases h with ⟨_, ⟨rfl, hoffset⟩, _, ⟨_, ⟨rfl, hbefore, hafter⟩, rfl⟩, rfl⟩
    exact ⟨rfl, hoffset, hbefore, hafter⟩
  · intro h
    rcases h with ⟨rfl, hoffset, hbefore, hafter⟩
    exact ⟨_, ⟨rfl, hoffset⟩, _, ⟨_, ⟨rfl, hbefore, hafter⟩, rfl⟩, rfl⟩

end AlertProbe
