import AlertProbe.Model.Http

/-!
# What the installer asks before it starts

`check_host_distrib`, `check_distrib_release`, `check_host_arch` and `enter_password`
of the installer's file of generic functions, with the values that the variables
have before.
-/

namespace AlertProbe

open Foundations

/-- What the installer asks of its machine: the bytes of files that are there, and what programs
that are there print. -/
structure Surroundings where
  /-- `/usr/bin/lsb_release -is` and `/usr/bin/lsb_release -rs` -/
  lsb_release : Option (CString × CString)
  /-- `/etc/redhat-release` -/
  redhat_release : Option CString
  /-- `/etc/debian_version` -/
  debian_version : Option CString
  /-- `/etc/issue` -/
  issue : Option CString
  /-- `/usr/bin/arch` -/
  arch : Option CString
  /-- `/bin/uname -m` -/
  uname : Option CString
deriving DecidableEq, Repr

/-- `s/^\(.*\) release.*/\1/`. -/
def distribOfLine (line : CString) : CString :=
  match lastSplit (ascii " release").isPrefixOf line with
  | some (front, _) => front
  | none => line

/-- The digits and dots of a version. -/
def versionByte (b : UInt8) : Bool :=
  isDigit b || b == charByte '.'

/-- `release [0-9]`, at the start of a text. -/
def startsRelease (text : CString) : Bool :=
  (ascii "release ").isPrefixOf text && (text.drop 8).head?.any isDigit

/-- `s/.*release \([0-9][0-9.]*\).*/\1/`. -/
def releaseOfLine (line : CString) : CString :=
  match lastSplit startsRelease line with
  | some (_, back) => (back.drop 8).takeWhile versionByte
  | none => line

/-- `check_host_distrib`: the value of `HOST_DISTRIB`, unless it has ended the installer. -/
def check_host_distrib (s : Surroundings) : Option CString :=
  match s.lsb_release with
  | some (distrib, _) => some (commandSubstitution distrib)
  | none =>
      match s.redhat_release with
      | some text => some (commandSubstitution (eachLine newline distribOfLine text))
      | none =>
          s.issue.map fun text =>
            commandSubstitution (unlines newline (((linesOf newline text).take 1).map (cut blank 1)))

/-- `check_distrib_release`: the value of `DISTRIB_RELEASE`.  Where nothing is found the function
says so, and the variable keeps its value. -/
def check_distrib_release (s : Surroundings) : CString :=
  match s.lsb_release with
  | some (_, release) => commandSubstitution release
  | none =>
      match s.debian_version with
      | some text => commandSubstitution text
      | none =>
          match s.redhat_release with
          | some text => commandSubstitution (eachLine newline releaseOfLine text)
          | none => ascii "0"

/-- `check_host_arch`: the value of `HOST_ARCH`, unless it has ended the installer. -/
def check_host_arch (s : Surroundings) : Option CString :=
  match s.arch with
  | some output => some (commandSubstitution output)
  | none => s.uname.map commandSubstitution

/-- The variables behind the three checks, which stand in this order. -/
def check_host (s : Surroundings) (ASSET_ID PROBE_ID : Nat) (API_HOST : CString) :
    Option Variables :=
  match check_host_distrib s with
  | none => none
  | some HOST_DISTRIB =>
      let DISTRIB_RELEASE := check_distrib_release s
      match check_host_arch s with
      | none => none
      | some HOST_ARCH =>
          some { ASSET_ID, PROBE_ID, API_HOST, HOST_ARCH, HOST_DISTRIB, DISTRIB_RELEASE }

/-- `enter_password`: the value of `PASSWORD` behind `read PASSWORD`, given what is typed. -/
def enter_password (typed : CString) : CString :=
  readLine typed

end AlertProbe
