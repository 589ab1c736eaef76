import AlertProbe.Foundations.KeyFile
import AlertProbe.Foundations.PercentEncoding
import AlertProbe.Foundations.StreamEditor
import AlertProbe.Model.Conf

/-!
# The configuration file

What the installer makes of `probe.conf` with `sed`, and what `loadConf` gets of the
text of the file through `GKeyFile`.
-/

namespace AlertProbe

open Foundations

/-! ## The installer -/

/-- The values that the installer writes into `probe.conf`. -/
structure Settings where
  PROBE_ID : Nat
  TOKEN : CString
  token_plain : ∀ b ∈ TOKEN, alphanumeric b = true

/-- `s/\(pattern\).*/\1value/`, for a value in which `sed` interprets nothing. -/
def replaceBehind (pattern value : CString) : CString → CString
  | [] => []
  | b :: rest =>
      if pattern.isPrefixOf (b :: rest) then pattern ++ value
      else b :: replaceBehind pattern value rest

/-- `-e "s/\(probe_id=\).*/\1$PROBE_ID/" -e "s/\(token=\).*/\1$TOKEN/"` on one line. -/
def Settings.edit (s : Settings) (line : CString) : CString :=
  replaceBehind (ascii "token=") s.TOKEN
    (replaceBehind (ascii "probe_id=") (decimalNat s.PROBE_ID) line)

/-- `sed -i` on `probe.conf`. -/
def configure (s : Settings) (text : CString) : CString :=
  eachLine newline s.edit text

/-! ## The probe -/

/-- The library that reads the file: what it takes a line for, the names that it accepts, what it
finds in a text, what its getters make of the text of a value, given its group and key, and the
messages of its errors. -/
structure GKeyFile where
  line : CString → KeyFileLine
  names : KeyFileNames
  /-- The pairs of a text; `none` when it is not a key file. -/
  entries : CString → Option (List KeyFileEntry)
  groups : CString → List CString
  integer : CString → CString → CString → IntegerValue
  string : CString → CString → CString → StringValue
  /-- A key that is not in its group, given the groups of the file. -/
  missing : List CString → CString → CString → CString
  /-- A file that is not a key file. -/
  loadError : CString → CString

/-- `g_key_file_get_integer` on the entries of a file. -/
def GKeyFile.getInteger (reader : GKeyFile) (groups : List CString) (entries : List KeyFileEntry)
    (group key : CString) : IntegerValue :=
  match lookupEntry entries group key with
  | some raw => reader.integer group key raw
  | none => .error (reader.missing groups group key)

/-- `g_key_file_get_string` on the entries of a file. -/
def GKeyFile.getString (reader : GKeyFile) (groups : List CString) (entries : List KeyFileEntry)
    (group key : CString) : StringValue :=
  match lookupEntry entries group key with
  | some raw => reader.string group key raw
  | none => .missing (reader.missing groups group key)

/-- The keys that `loadConf` reads. -/
def GKeyFile.keyFile (reader : GKeyFile) (groups : List CString) (entries : List KeyFileEntry) :
    KeyFile where
  probe_id := reader.getInteger groups entries (ascii "probe") (ascii "probe_id")
  token := reader.getString groups entries (ascii "probe") (ascii "token")
  probe_plugin_dir := reader.getString groups entries (ascii "probe") (ascii "probe_plugin_dir")
  transport_proto := reader.getInteger groups entries (ascii "transport") (ascii "transport_proto")
  transport_message_version :=
    reader.getInteger groups entries (ascii "transport") (ascii "transport_message_version")
  engine_fqdn := reader.getString groups entries (ascii "engine") (ascii "engine_fqdn")
  engine_port := reader.getInteger groups entries (ascii "engine") (ascii "engine_port")

/-- `g_key_file_load_from_file`, for a file with the given text. -/
def GKeyFile.load (reader : GKeyFile) (text : CString) : Except CString KeyFile :=
  match reader.entries text with
  | some entries => .ok (reader.keyFile (reader.groups text) entries)
  | none => .error (reader.loadError text)

end AlertProbe
