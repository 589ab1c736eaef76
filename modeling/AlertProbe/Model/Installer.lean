import AlertProbe.Foundations.TransitionSystem
import AlertProbe.Model.Configure
import AlertProbe.Model.Http

/-!
# A run of the installer

The part of `execution.part.sh` that talks to the API and changes the machine, as a
whole.  Every step can end the installer, and what the steps before it have done
stays done.
-/

namespace AlertProbe

open Foundations

/-- What the client prints for each of the three requests. -/
structure Responses where
  asset : CString
  packages : CString
  informations : CString
deriving DecidableEq, Repr

/-- The files of the directory `etc`. -/
structure Etc where
  probeConf : Option CString
  informations : Option CString
deriving DecidableEq, Repr

/-- What the init script finds: no daemon, a daemon and the `probe.conf` that it has read, or no
daemon but a lock file, as the one of the rpm leaves it when the daemon ends by itself. -/
inductive Service where
  | stopped
  | running (probeConf : Option CString)
  | locked
deriving DecidableEq, Repr

/-- What the installer changes: the packages installed, what they put, and the daemon. -/
structure Target where
  installations : List Installation
  /-- The executable of the daemon is there. -/
  executable : Bool
  etc : Option Etc
  service : Service
deriving DecidableEq, Repr

namespace Target

/-- A machine without the probe. -/
def empty : Target :=
  ⟨[], false, none, .stopped⟩

/-- The configuration that a daemon would read. -/
def probeConf (t : Target) : Option CString :=
  t.etc.bind Etc.probeConf

end Target

/-! ## The package manager -/

/-- What the package manager can make of `etc`, when `shipped` is the `probe.conf` of a package.
The directory is kept, or the scripts of an older package remove it, or `probe.conf` is put there,
where `dpkg` and `yum` have not kept the one that was there. -/
inductive Manages (shipped : Installation → Option CString) (installations : List Installation) :
    Option Etc → Option Etc → Prop where
  | kept (etc : Option Etc) : Manages shipped installations etc etc
  | removed (etc : Option Etc) : Manages shipped installations etc none
  | put {p : Installation} {conf : CString} (etc : Option Etc) : p ∈ installations →
      shipped p = some conf →
        Manages shipped installations etc (some ⟨some conf, etc.bind Etc.informations⟩)

/-- The package manager, as it is when the installer calls it. -/
structure PackageManager (shipped : Installation → Option CString) where
  executable : List Installation → Bool → Bool
  etc : List Installation → Option Etc → Option Etc
  /-- The scripts of an older package stop the service. -/
  stops : List Installation → Bool
  manages : ∀ installations before, Manages shipped installations before (etc installations before)

namespace Target

variable {shipped : Installation → Option CString}

/-- The machine behind the loop over the packages. -/
def install (manager : PackageManager shipped) (t : Target) (installations : List Installation) :
    Target where
  installations := t.installations ++ installations
  executable := manager.executable installations t.executable
  etc := manager.etc installations t.etc
  service := if manager.stops installations then .stopped else t.service

/-- The machine behind `sed` on `probe.conf`, which does nothing to a file that is not there. -/
def configure (s : Settings) (t : Target) : Target :=
  { t with etc := t.etc.map fun etc =>
      { etc with probeConf := etc.probeConf.map (AlertProbe.configure s) } }

/-- The machine behind `cp informations.json`, which wants the directory. -/
def copy (informations : CString) (t : Target) : Target :=
  { t with etc := t.etc.map fun etc =>
      { etc with informations := some (eachLine newline unescapeJson informations) } }

/-- `service ea-probe start`: the init script does nothing when it finds the daemon running. -/
def start (t : Target) : Target :=
  { t with service :=
      match t.service with
      | .stopped => if t.executable then .running t.probeConf else .stopped
      | .running probeConf => .running probeConf
      | .locked => .locked }

end Target

/-! ## The installer -/

/-- `execution.part.sh` from the first request on; an error is an exit. -/
def install {shipped : Installation → Option CString} (host : Host)
    (manager : PackageManager shipped) (s : Settings) (responses : Responses) (t : Target) :
    Except Target Target :=
  match receive host [] (ascii "asset_update_res") responses.asset with
  | none => .error t
  | some _ =>
      match receive host [] (ascii "json_packages") responses.packages with
      | none => .error t
      | some json_packages =>
          match packageLoop host json_packages with
          | .error loop => .error (t.install manager loop.installations)
          | .ok loop =>
              let configured := (t.install manager loop.installations).configure s
              match receive host (writtenFiles loop.installations) (ascii "informations.json")
                responses.informations with
              | none => .error configured
              | some informations => .ok (configured.copy informations).start

/-- The machine behind a run, whether it came to its end or not. -/
def Target.behind : Except Target Target → Target
  | .error left => left
  | .ok left => left

/-- What happens on a machine. -/
inductive TargetAction (shipped : Installation → Option CString) where
  /-- The installer is run. -/
  | run (manager : PackageManager shipped) (s : Settings) (responses : Responses)
  /-- The service is started when the machine boots, or by hand. -/
  | start
  /-- The service is stopped. -/
  | stop
  /-- The daemon ends by itself. -/
  | ends (locked : Bool)
  /-- The daemon is restarted by `SIGHUP`, and reads its configuration. -/
  | restart

/-- A step of a machine. -/
def targetStep {shipped : Installation → Option CString} (host : Host) (t : Target)
    (a : TargetAction shipped) : Outcome Target :=
  match a with
  | .run manager s responses => .next (Target.behind (install host manager s responses t))
  | .start => .next t.start
  | .stop => .next { t with service := .stopped }
  | .ends locked =>
      match t.service with
      | .running _ => .next { t with service := if locked then .locked else .stopped }
      | .stopped | .locked => .blocked
  | .restart =>
      match t.service with
      | .running _ => .next { t with service := .running t.probeConf }
      | .stopped | .locked => .blocked

/-- A machine on which the installer is run again and again. -/
def installers (host : Host) (shipped : Installation → Option CString) :
    Machine Target (TargetAction shipped) where
  initial := Target.empty
  step := targetStep host

end AlertProbe
