import AlertProbe.Foundations.CText
import AlertProbe.Foundations.PercentEncoding

/-!
# Data of the probe

The structures that the format and sender threads share, as `format.h`,
`sender.h` and the unit tests' use of `addonLib.h` give them.  A queue is the
list of the elements that its `first` pointer leads to.

Two functions of GLib are parameters of the model, with their documented
behaviour as the structure `GLib.Documented`.
-/

namespace AlertProbe

open Foundations

/-- `EXIT_SUCCESS`. -/
def exitSuccess : Int32 := 0

/-- `EXIT_FAILURE`. -/
def exitFailure : Int32 := 1

/-- `APP_NAME`. -/
def APP_NAME : CString := ascii "ea-probe"

/-- `time_t`, in seconds. -/
abbrev Time := Int

/-- What `g_get_current_time` fills in. -/
structure GTimeVal where
  tv_sec : Int
  tv_usec : Int
deriving DecidableEq, Repr

/-- The GLib functions that turn data into text. -/
structure GLib where
  /-- `g_uri_escape_string(value, "", TRUE)`. -/
  g_uri_escape_string : CString → CString
  g_time_val_to_iso8601 : GTimeVal → CString

/-- Documented behaviour: a value is percent-encoded, and an ISO 8601 time has no blank. -/
structure GLib.Documented (glib : GLib) : Prop where
  escapes : ∀ value, Escapes value (glib.g_uri_escape_string value)
  iso8601_no_space : ∀ g_time, charByte ' ' ∉ glib.g_time_val_to_iso8601 g_time

/-- A reading that an addon put on the collect queue.  The arrays `idsIDA` and
`values` both have `valuesLength` entries. -/
structure CollectQueueElement where
  lotNum : Int32
  lineNum : Int32
  idsIDA : List Int32
  values : List CString
  time : Time
  length_eq : idsIDA.length = values.length
deriving DecidableEq, Repr

/-- Number of values of a reading. -/
def CollectQueueElement.valuesLength (e : CollectQueueElement) : Nat :=
  e.values.length

/-- An element of the SD-Element queue, less its `next` pointer. -/
structure SDElementQueueElement where
  beforeMsgID : CString
  afterMsgID : CString
  afterOffset : CString
  time : Time
deriving DecidableEq, Repr

/-- A heartbeat carries no data behind its offset. -/
def SDElementQueueElement.isData (e : SDElementQueueElement) : Bool :=
  !e.afterOffset.isEmpty

/-- The fields of `SDElementQueue` that the threads only read; `probeID` and
`transportMsgVersion` are pointers to the configuration in the source. -/
structure SDElementHeader where
  hostname : CString
  appName : CString
  token : CString
  probeID : UInt32
  transportMsgVersion : UInt8
  pID : Int32
deriving DecidableEq, Repr

/-- The fields of `SenderParams` that the sender thread only reads. -/
structure SenderParams where
  address : CString
  port : UInt16
  protocol : UInt8
deriving DecidableEq, Repr

/-! ## Example data -/

/-- GLib as it behaves on ASCII values and at the epoch. -/
def exampleGLib : GLib where
  g_uri_escape_string := escapeBytes
  g_time_val_to_iso8601 _ := ascii "1970-01-01T00:00:00Z"

/-- It has the documented behaviour. -/
theorem exampleGLib_documented : exampleGLib.Documented where
  escapes := escapes_escapeBytes
  iso8601_no_space _ := by
    change charByte ' ' ∉ ascii "1970-01-01T00:00:00Z"
    decide

/-- The queue header of the unit tests. -/
def exampleHeader : SDElementHeader where
  hostname := ascii "127.0.0.1"
  appName := APP_NAME
  token := ascii "abcd1234"
  probeID := 1
  transportMsgVersion := 2
  pID := 3

/-- The first reading of the unit tests. -/
def exampleReading : CollectQueueElement where
  lotNum := 6
  lineNum := 5
  idsIDA := [1]
  values := [ascii "a"]
  time := 7
  length_eq := rfl

/-- A reading with one value of 480 letters. -/
def longReading : CollectQueueElement where
  lotNum := 6
  lineNum := 5
  idsIDA := [1]
  values := [List.replicate 480 (charByte 'a')]
  time := 7
  length_eq := rfl

/-- A reading with one value of 3330 blanks. -/
def blankReading : CollectQueueElement where
  lotNum := 6
  lineNum := 5
  idsIDA := [1]
  values := [List.replicate 3330 (charByte ' ')]
  time := 7
  length_eq := rfl

/-- A reading with one value more than a 16-bit index counts. -/
def wideReading : CollectQueueElement where
  lotNum := 6
  lineNum := 5
  idsIDA := List.replicate 65536 1
  values := List.replicate 65536 (ascii "a")
  time := 7
  length_eq := by rw [List.length_replicate, List.length_replicate]

end AlertProbe
