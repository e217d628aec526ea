/-
The helpers of `src/packages/mod.rs` that the backends share for the system: its description, the
detection of a pending reboot, the reboot, and the status of a service under systemd and OpenRC.
-/
import LinuxPatchApi.Packages.Backend

namespace LinuxPatchApi.Packages

open Text Interaction

/-! ## Kernels -/

def pathExists (path : String) : Op Bool := do
  let there : Bool ← ask (.pathExists path)
  return there

def readFile (path : String) : Op (Option String) := do
  let content : Option String ← ask (.readFile path)
  return content

/-- The strict decoding of a process's standard output, trimmed; `none` when nothing is left. -/
def trimmedOutput (output : Option ProcessOutput) : Option String :=
  ((output.bind fun o => String.fromUTF8? ⟨o.stdout.toArray⟩).map trim).filter fun s => !s.isEmpty

def getRunningKernelVersion : Op (Option String) := do
  let output : Option ProcessOutput ← ask (.output "uname" ["-r"])
  return trimmedOutput output

/-- The greatest text of a list, in the order of the code points; the first of equals. -/
def greatest (versions : List String) : Option String :=
  versions.foldl (fun best v => if best.all (fun b => decide (b < v)) then some v else best) none

/-- The kernel version in a line of `dpkg -l`. -/
def dpkgKernel (line : String) : Option String :=
  if !startsWith line "ii  " then none
  else match splitWhitespace line with
    | _ :: name :: _ =>
      if startsWith name "linux-image-" then
        let ver := trimStartMatches name "linux-image-"
        if contains ver "generic" || contains ver "virtual" || contains ver "meta" then none else some ver
      else none
    | _ => none

/-- The kernel version in a line of `rpm -q kernel`. -/
def rpmKernel (line : String) : Option String :=
  let line := trim line
  if line.isEmpty || contains line "not installed" then none else some line

/-- The version in the first line of `apk info -e`. -/
def apkKernel (pkg : String) (stdout : String) : Option String :=
  (((lines stdout).head?.bind fun line => stripPrefix (trim line) (pkg ++ "-")).bind fun rest =>
    stripSuffix rest " description:").filter fun ver => !ver.isEmpty

/-- The version in the first line of `pacman -Q linux`. -/
def pacmanKernel (stdout : String) : Option String :=
  (lines stdout).head?.bind fun line => (splitWhitespace line)[1]?

/-- Asks a tool, when it is there, for what `parse` finds in its output. -/
def kernelFrom (tool : String) (args : List Arg) (parse : String → Option String) : Op (Option String) := do
  let output ← tryRun tool args
  return output.bind fun o => parse o.stdout

/-- The first of the queries that finds a version. -/
def firstFound : List (Op (Option String)) → Op (Option String)
  | [] => return none
  | query :: queries => do
    match ← query with
    | some version => return some version
    | none => firstFound queries

def whenAvailable (tool : String) (query : Op (Option String)) : Op (Option String) := do
  if ← commandAvailable tool then query else return none

def getInstalledKernelVersion : Op (Option String) :=
  firstFound [
    whenAvailable "dpkg" (kernelFrom "dpkg" ["-l"] fun out => greatest ((lines out).filterMap dpkgKernel)),
    whenAvailable "rpm" (kernelFrom "rpm" ["-q", "kernel", "--qf", "%\x7bVERSION\x7d-%\x7bRELEASE\x7d.%\x7bARCH\x7d\n"]
      fun out => greatest ((lines out).filterMap rpmKernel)),
    whenAvailable "apk"
      (firstFound (["linux-virt", "linux-lts", "linux-hardened", "linux-rpi"].map fun (pkg : String) =>
        kernelFrom "apk" ["info", "-e", pkg] (apkKernel pkg))),
    whenAvailable "pacman" (kernelFrom "pacman" ["-Q", "linux"] pacmanKernel)]

/-! ## A pending reboot -/

def isLxcContainer : Op Bool := do
  let environ ← readFile "/proc/1/environ"
  if environ.any (contains · "container=lxc") then return true
  let cgroup ← readFile "/proc/1/cgroup"
  if cgroup.any (contains · "lxc") then return true
  if ← pathExists "/.dockerenv" then return true
  pathExists "/run/.containerenv"

/-- `dnf needs-restarting -r`: exit code 1 of an output means that a reboot is needed. -/
def dnfNeedsRestarting : Op Bool := do
  if ← commandAvailable "dnf" then
    let output ← tryRun "dnf" ["needs-restarting", "-r"]
    return output.any fun o => o.statusCode == some 1
  else return false

/-- The running kernel is not the installed one, outside of containers. -/
def kernelDiffers : Op Bool := do
  if ← isLxcContainer then return false
  match ← getInstalledKernelVersion with
  | none => return false
  | some installed =>
    let running ← getRunningKernelVersion
    return running.any fun running => installed != running

def checkPendingReboot : Op Bool := do
  if ← pathExists "/var/run/reboot-required" then return true
  if ← pathExists "/boot/.reboot-required" then return true
  if ← dnfNeedsRestarting then return true
  kernelDiffers

/-! ## System information -/

/-- One line of `/etc/os-release`; the value keeps what is left after the key, blanks and quotes. -/
def osReleaseLine (acc : String × String) (line : String) : String × String :=
  let value (key : String) : String := trimChar (trim (trimStartMatches line key)) '"'
  if startsWith line "PRETTY_NAME=" then (value "PRETTY_NAME=", acc.2)
  else if startsWith line "NAME=" then (value "NAME=", acc.2)
  else if startsWith line "VERSION=" then (acc.1, value "VERSION=")
  else if startsWith line "VERSION_ID=" then (acc.1, value "VERSION_ID=")
  else acc

/-- The operating system and its version. -/
def osRelease (content : Option String) : String × String :=
  match content with
  | none => ("Linux", "unknown")
  | some content => (lines content).foldl osReleaseLine ("Linux", "unknown")

def trimmedOrUnknown (output : Option CommandOutput) : String :=
  (output.map fun o => trim o.stdout).getD "unknown"

/-- `get_system_info_via_runner`. -/
def getSystemInfo : Op SystemInfo := do
  let hostname ← tryRun "hostname" []
  let content ← readFile "/etc/os-release"
  let kernel ← tryRun "uname" ["-r"]
  let architecture ← tryRun "uname" ["-m"]
  let pendingReboot ← checkPendingReboot
  return {
    hostname := trimmedOrUnknown hostname
    os := (osRelease content).1
    osVersion := (osRelease content).2
    kernel := trimmedOrUnknown kernel
    architecture := trimmedOrUnknown architecture
    lastUpdateCheck := none
    lastUpdateApply := none
    pendingReboot }

/-! ## Rebooting -/

/-- Minutes for a delay in seconds, rounded up, at least one. -/
def delayMinutes (delaySeconds : Nat) : Nat := max 1 ((delaySeconds + 59) / 60)

/-- `reboot_system_via_runner`; the delay is a number that the agent computes. -/
def rebootSystem (delaySeconds : Nat) : Op Unit := do
  if delaySeconds > 0 then
    let _ ← runCommandTimed "shutdown" ["-r", .own ("+" ++ toString (delayMinutes delaySeconds))] quickOpTimeout
  else
    let _ ← runCommandTimed "systemctl" ["reboot"] quickOpTimeout

/-! ## Services -/

/-- What `systemctl show` tells about a unit. -/
structure UnitProperties where
  id : String := ""
  description : String := ""
  activeState : String := ""
  subState : String := ""
  loadState : String := ""
  unitFileState : String := ""
  mainPid : Option Nat := none

def UnitProperties.read (u : UnitProperties) (line : String) : UnitProperties :=
  match splitOnce line "=" with
  | none => u
  | some (key, value) =>
    match key with
    | "Id" => { u with id := value }
    | "Description" => { u with description := value }
    | "ActiveState" => { u with activeState := value }
    | "SubState" => { u with subState := value }
    | "LoadState" => { u with loadState := value }
    | "UnitFileState" => { u with unitFileState := value }
    | "MainPID" => { u with mainPid := (parseU32 value).filter (0 < ·) }
    | _ => u

def UnitProperties.running (u : UnitProperties) : Bool := u.activeState == "active" && u.subState == "running"

def socketActive (u : UnitProperties) : Op Bool := do
  let socketName := trimEndMatches u.id ".service" ++ ".socket"
  let output ← tryRun "systemctl" ["show", .own socketName, "--property=ActiveState", "--no-pager"]
  return output.any fun o => contains o.stdout "ActiveState=active"

/-- A unit that is enabled but inactive is healthy when its socket is active. -/
def unitHealthy (u : UnitProperties) : Op Bool :=
  if !u.running && u.activeState == "inactive" && u.unitFileState == "enabled" then socketActive u
  else return u.running

def unitStatus (u : UnitProperties) : Op (Option ServiceStatus) := do
  if u.loadState == "not-found" || u.loadState == "bad-setting" || u.id.isEmpty then return none
  else
    let healthy ← unitHealthy u
    return some {
      name := u.id, displayName := u.description, activeState := u.activeState, subState := u.subState
      loadState := u.loadState, enabledState := u.unitFileState, mainPid := u.mainPid, healthy }

/-- `get_systemd_service_status_via_runner`. -/
def getSystemdServiceStatus (name : String) : Op (Option ServiceStatus) := do
  let output ← runWithTimeout "systemctl"
    ["show", "--property=Id,Description,ActiveState,SubState,LoadState,UnitFileState,MainPID", "--no-pager", "--",
      .request name] (some quickOpTimeout)
  if !output.success || (trim output.stdout).isEmpty then return none
  else unitStatus ((lines output.stdout).foldl UnitProperties.read {})

/-- The active state, the sub-state and the health that the first line of `rc-service` shows. -/
def openrcState (stdout : String) : String × String × Bool :=
  let statusLine := toLowercase ((lines stdout).headD "")
  if contains statusLine "started" || contains statusLine "running" then ("active", "running", true)
  else if contains statusLine "stopped" || contains statusLine "not running" then ("inactive", "dead", false)
  else if contains statusLine "crashed" || contains statusLine "failed" then ("failed", "failed", false)
  else ("unknown", "unknown", false)

/-- What `rc-update show default` tells about the service. -/
def openrcEnabled (name : String) (output : Option CommandOutput) : String :=
  match output with
  | none => "unknown"
  | some o => if (lines o.stdout).any (fun l => startsWith (trim l) name) then "enabled" else "disabled"

/-- `get_openrc_service_status_via_runner`. -/
def getOpenrcServiceStatus (name : String) : Op (Option ServiceStatus) := do
  let output ← runWithTimeout "rc-service" [.request name, "status"] (some quickOpTimeout)
  if output.success then
    let enabledOutput ← tryRun "rc-update" ["show", "default"]
    return some {
      name, displayName := name, activeState := (openrcState output.stdout).1
      subState := (openrcState output.stdout).2.1, loadState := "loaded"
      enabledState := openrcEnabled name enabledOutput, mainPid := none, healthy := (openrcState output.stdout).2.2 }
  else if contains output.stderr "does not exist" || contains output.stdout "does not exist" then return none
  else throw (anyhow ("rc-service failed: " ++ output.stderr))

/-- The validation that every backend makes before it asks for a service. -/
def withServiceName (name : String) (query : Op (Option ServiceStatus)) : Op (Option ServiceStatus) :=
  match validateServiceName name with
  | .error e => throw (anyhow e)
  | .ok () => query

end LinuxPatchApi.Packages
