import AlertProbe.Foundations.Shell
import AlertProbe.Foundations.StreamEditor

/-!
# The installer

The parts of `install.sh` that work on text, as `execution.part.sh` and the
function files give them.  The tools work on bytes.
-/

namespace AlertProbe

open Foundations

/-! ## encode_url -/

/-- The substitutions of `encode_url`, in the order of the `-e` options. -/
def urlRules : List (UInt8 × CString) :=
  [(charByte '%', ascii "%25"), (charByte ' ', ascii "%20"), (charByte '!', ascii "%21"),
    (charByte '"', ascii "%22"), (charByte '#', ascii "%23"), (charByte '$', ascii "%24"),
    (charByte '&', ascii "%26"), (charByte '\x27', ascii "%27"), (charByte '(', ascii "%28"),
    (charByte ')', ascii "%29"), (charByte '*', ascii "%2A"), (charByte '+', ascii "%2B"),
    (charByte ',', ascii "%2C"), (charByte '-', ascii "%2D"), (charByte '.', ascii "%2E"),
    (charByte '/', ascii "%2F"), (charByte ':', ascii "%3A"), (charByte ';', ascii "%3B"),
    (charByte '<', ascii "%3C"), (charByte '=', ascii "%3D"), (charByte '>', ascii "%3E"),
    (charByte '?', ascii "%3F"), (charByte '@', ascii "%40"), (charByte '[', ascii "%5B"),
    (charByte '\\', ascii "%5C"), (charByte ']', ascii "%5D"), (charByte '^', ascii "%5E"),
    (charByte '_', ascii "%5F"), (charByte '\x60', ascii "%60"), (charByte '\x7b', ascii "%7B"),
    (charByte '|', ascii "%7C"), (charByte '\x7d', ascii "%7D"), (charByte '~', ascii "%7E")]

/-- `$(encode_url "$text")`. -/
def encode_url (text : CString) : CString :=
  commandSubstitution (eachLine newline (script (symbolScript urlRules)) (echo [text]))

/-! ## The package loop -/

/-- The machine that the installer runs on, with the tools that are not part of it. -/
structure Host where
  /-- Pathname expansion of a field, given the package files written so far. -/
  glob : List CString → CString → List CString
  /-- `grep` takes its input for binary. -/
  binary : CString → Bool
  /-- What `grep` prints when a line of the named binary input matches. -/
  binaryMatches : CString → List CString
  /-- `[` with more operands than the test has, or with fewer. -/
  test : List CString → Bool
  /-- What `/usr/bin/base64 -d` makes of its input. -/
  base64 : CString → CString
  /-- The redirection to a file of this name succeeds. -/
  canCreate : CString → Bool
  dpkg : Bool
  apt_get : Bool
  yum : Bool

/-- A call of `package_installation`: the value of `PKG` and the bytes written to the file of
that name. -/
structure Installation where
  PKG : CString
  file : Option CString
deriving DecidableEq, Repr

/-- The file `json_package`, the variable `count` and the installations so far. -/
structure LoopState where
  json_package : CString
  count : Int
  installations : List Installation
deriving DecidableEq, Repr

/-- The package files written so far. -/
def writtenFiles (installations : List Installation) : List CString :=
  installations.filterMap fun i => i.file.map fun _ => i.PKG

/-- The words of an unquoted variable. -/
def words (host : Host) (files : List CString) (value : CString) : List CString :=
  (fields value).flatMap (host.glob files)

/-- `grep -o c | wc -l`. -/
def occurrences (host : Host) (c : UInt8) (output : CString) : Nat :=
  if host.binary output then
    if c ∈ output then (host.binaryMatches (ascii "(standard input)")).length else 0
  else output.count c

/-- `grep pattern json_package`. -/
def grep (host : Host) (pattern json_package : CString) : List CString :=
  if host.binary json_package then
    if (linesOf newline json_package).any (hasMatch pattern) then
      host.binaryMatches (ascii "json_package")
    else []
  else (linesOf newline json_package).filter (hasMatch pattern)

/-- `sed -e 's/ //g' | cut -d':' -f 2 | cut -d',' -f 1 | sed -e 's/"//g'` on one line. -/
def memberValue (line : CString) : CString :=
  (Substitution.single quote []).apply
    (cut (charByte ',') 1 (cut (charByte ':') 2 ((Substitution.single blank []).apply line)))

/-- The value of `PKG` or `PKG_CONTENT_B64`: the values on the lines that have the key. -/
def member (host : Host) (key json_package : CString) : CString :=
  commandSubstitution (unlines newline ((grep host key json_package).map memberValue))

/-- `$(echo $PKG | sed 's/.*\.\(.*\)$/\1/g')`: what stands behind the last dot. -/
def PKG_TYPE (host : Host) (files : List CString) (PKG : CString) : CString :=
  commandSubstitution (eachLine newline (fun line => line.rtakeWhile (· != charByte '.'))
    (echo (words host files PKG)))

/-- `[ -z $value ]`. -/
def testEmpty (host : Host) : List CString → Bool
  | [] => true
  | [word] => word == []
  | value => host.test (ascii "-z" :: value)

/-- `[ $value = literal ]`. -/
def testEqual (host : Host) (literal : CString) : List CString → Bool
  | [word] => word == literal
  | value => host.test (value ++ [ascii "=", literal])

/-- `package_installation`: whether it comes back; otherwise `clean_and_exit` has ended the
installer. -/
def package_installation (host : Host) (files : List CString) (type : CString) : Bool :=
  if testEqual host (ascii "deb") (words host files type) then host.dpkg && host.apt_get
  else if testEqual host (ascii "rpm") (words host files type) then host.yum
  else false

/-- The words of `$PKG_CONTENT_B64`. -/
def contentWords (host : Host) (files : List CString) (json_package : CString) :
    List CString :=
  words host files (member host (ascii "\"content\"") json_package)

/-- What `json_package` says is to be installed: the value of `PKG`, and the file written by
`echo $PKG_CONTENT_B64 | /usr/bin/base64 -d > $PKG`. -/
def collected (host : Host) (files : List CString) (json_package : CString) : Installation :=
  let PKG := member host (ascii "\"filename\"") json_package
  { PKG
    file :=
      if host.canCreate PKG then some (host.base64 (echo (contentWords host files json_package)))
      else none }

/-- The branch taken when the braces of `json_package` are balanced; an error is an exit. -/
def installPackage (host : Host) (s : LoopState) : Except LoopState LoopState :=
  let files := writtenFiles s.installations
  let i := collected host files s.json_package
  let installations := s.installations ++ [i]
  if testEmpty host (contentWords host files s.json_package) then .error s
  else if package_installation host (writtenFiles installations) (PKG_TYPE host files i.PKG) then
    .ok { json_package := [newline], count := s.count, installations }
  else .error { s with installations }

/-- The output of `echo $line`. -/
def shown (host : Host) (files : List CString) (line : CString) : CString :=
  echo (words host files line)

/-- `occur_open+occur_close` for the square brackets. -/
def brackets (host : Host) (files : List CString) (line : CString) : Nat :=
  occurrences host (charByte '[') (shown host files line) +
    occurrences host (charByte ']') (shown host files line)

/-- `occur_open-occur_close` for the braces. -/
def braces (host : Host) (files : List CString) (line : CString) : Int :=
  occurrences host 123 (shown host files line) - occurrences host 125 (shown host files line)

/-- The body of the loop. -/
def packageStep (host : Host) (s : LoopState) (line : CString) : Except LoopState LoopState :=
  let files := writtenFiles s.installations
  if s.count = 0 ∧ brackets host files line ≠ 0 then .ok s
  else
    let json_package := s.json_package ++ shown host files line
    let count := s.count + braces host files line
    if count = 0 then installPackage host { s with json_package, count }
    else .ok { s with json_package, count }

/-- `echo > json_package` and `count=0`. -/
def startLoop (installations : List Installation) : LoopState where
  json_package := [newline]
  count := 0
  installations := installations

/-- The loop over the lines of `json_packages`; behind it the probe is reported installed. -/
def packageLoop (host : Host) (json_packages : CString) : Except LoopState LoopState :=
  (readLines json_packages).foldlM (packageStep host) (startLoop [])

/-! ## Unescape Json -/

/-- The byte that a JSON writer may escape. -/
def slash : UInt8 := charByte '/'

/-- `s:\\\\:\\:g`. -/
def doubleBackslash : Substitution UInt8 where
  pattern := [backslash, backslash]
  replacement := [backslash]
  pattern_ne_nil := List.cons_ne_nil _ _

/-- `s:\\/:/:g`. -/
def escapedSlash : Substitution UInt8 where
  pattern := [backslash, slash]
  replacement := [slash]
  pattern_ne_nil := List.cons_ne_nil _ _

/-- What `sed` makes of one line of `informations.json`. -/
def unescapeJson (line : CString) : CString :=
  script [doubleBackslash, escapedSlash] line

end AlertProbe
