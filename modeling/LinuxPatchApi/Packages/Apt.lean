/-
`AptBackend` of `src/packages/mod.rs`: package operations on Debian and Ubuntu, each bracketed by the
removal of stale lock files and the clean-up of dpkg.
-/
import LinuxPatchApi.Packages.System

namespace LinuxPatchApi.Packages

open Text Interaction

/-- The deadline of a command: shorter when its first argument is one of those that only refresh. -/
def timeoutFor (refreshing : List String) (args : List Arg) : Nat :=
  if args.head?.any fun a => refreshing.contains a.text then cacheRefreshTimeout else packageOpTimeout

/-- The argument for a package with a version, which `sep` joins to the name. -/
def PackageSpec.arg (sep : String) (pkg : PackageSpec) : Arg :=
  match pkg.version with
  | some version => .request (pkg.name ++ sep ++ version)
  | none => .request pkg.name

/-- The second word of a text. -/
def secondWord (line : String) : Option String := (splitWhitespace line)[1]?

namespace AptBackend

/-! ## Lock files -/

def lockFiles : List String :=
  ["/var/lib/dpkg/lock-frontend", "/var/lib/dpkg/lock", "/var/cache/apt/archives/lock", "/var/lib/apt/lists/lock"]

def procPath (pid : Nat) : String := "/proc/" ++ toString pid

def cmdlinePath (pid : Nat) : String := "/proc/" ++ toString pid ++ "/cmdline"

/-- The command line names one of the tools that take the locks. -/
def namesAptOrDpkg (cmdline : String) : Bool :=
  let cmdline := replaceChar cmdline '\x00' " "
  contains cmdline "apt" || contains cmdline "dpkg" || contains cmdline "apt-get"

/-- The decision of `cleanup_stale_apt_locks` about a lock file that exists. -/
def lockIsStale (lockPath : String) : Op Bool := do
  match ← readFile lockPath with
  | none => return false
  | some content =>
    match parseU32 (trim content) with
    | some pid =>
      if ← pathExists (procPath pid) then
        let cmdline ← readFile (cmdlinePath pid)
        return cmdline.any fun cmdline => !namesAptOrDpkg cmdline
      else return true
    | none =>
      let output : Option ProcessOutput ← ask (.output "pgrep" ["-f", "(apt-get|apt-cache|dpkg|apt)"])
      -- a pgrep that does not start counts as no process
      let hasAptProcess := output.any fun o => !o.stdout.isEmpty
      return !hasAptProcess

def cleanupLock (lockPath : String) : Op Unit := do
  if ← pathExists lockPath then
    if ← lockIsStale lockPath then
      let _ ← ask (.removeFile lockPath)

def cleanupLocks : List String → Op Unit
  | [] => return ()
  | lockPath :: lockPaths => do
    cleanupLock lockPath
    cleanupLocks lockPaths

def cleanupStaleAptLocks : Op Unit := cleanupLocks lockFiles

/-! ## dpkg -/

def runDpkg (args : List Arg) : Op String := runCommandTimed "dpkg" args quickOpTimeout

def runAptCli (args : List Arg) : Op String := runCommandTimed "apt" args quickOpTimeout

def runAptCache (args : List Arg) : Op String := runCommandTimed "apt-cache" args quickOpTimeout

def ensureDpkgClean : Op Unit := do
  cleanupStaleAptLocks
  match ← Fallible.attempt (runDpkg ["--configure", "-a"]) with
  | .ok _ => return ()
  | .error e =>
    throw (e.context "dpkg --configure -a failed: package manager is in a broken state that requires manual intervention")

/-- The audit after a clean-up. -/
def recheckDpkg : Op Unit := do
  let recheck ← runDpkg ["--audit"]
  if (trim recheck).isEmpty then return ()
  else throw (anyhow ("dpkg --audit shows half-configured packages after operation and cleanup: " ++ trim recheck))

def verifyDpkgClean : Op Unit := do
  let auditOutput ← runDpkg ["--audit"]
  if (trim auditOutput).isEmpty then return ()
  else
    ensureDpkgClean
    recheckDpkg

/-- The error of an `apt-get` that ran and failed. -/
def aptGetFailed (args : List Arg) (output : CommandOutput) : AnyhowError :=
  .ofCommand {
    program := "apt-get", args := args.map Arg.text, exitCode := output.statusCode, stdout := output.stdout
    stderr := output.stderr, spawnError := none, timedOut := output.timedOut }

/-- What follows `apt-get`: an audit after success, a clean-up after failure. -/
def afterAptGet (args : List Arg) (result : Except AnyhowError CommandOutput) : Op String := do
  match result with
  | .error e =>
    let _ ← Fallible.attempt ensureDpkgClean
    throw (e.context "Failed to execute apt command")
  | .ok output =>
    if output.success then
      verifyDpkgClean
      return output.stdout
    else
      let _ ← Fallible.attempt ensureDpkgClean
      throw (aptGetFailed args output)

/-- `run_apt_safe`, which is all that `run_apt` does. -/
def runApt (args : List Arg) : Op String := do
  let locked : Bool ← ask .lockAptMutex
  if locked then
    ensureDpkgClean
    let result ← Fallible.attempt (runWithTimeout "apt-get" args (some (timeoutFor ["update"] args)))
    afterAptGet args result
  else throw (anyhow "apt mutex poisoned: poisoned lock: another task failed inside")

/-! ## Queries -/

/-- A line of `apt list`: name with suites, version, architecture, status in brackets. -/
def parsePackageLine (line : String) : Option Package :=
  if startsWith line "Listing..." || line.isEmpty then none
  else match splitWhitespace line with
    | first :: version :: _ :: rest =>
      let statusStr := rest.headD ""
      let status :=
        if contains statusStr "installed" then PackageStatus.installed
        else if contains statusStr "upgradable" then .upgradable
        else .available
      some {
        name := (split first '/').headD first, version, status, upgradable := status == .upgradable
        latestVersion := some version }
    | _ => none

def parsePackageList (output : String) : List Package := (lines output).filterMap parsePackageLine

def listPackages (filter : Option String) : Op (List Package) := do
  let args : List Arg := match filter with
    | some f => ["list", .request f]
    | none => ["list", "--installed"]
  let output ← runAptCli args
  return parsePackageList output

/-- One line of `dpkg -s`. -/
def dpkgLine (p : Package) (line : String) : Package :=
  let value (key : String) : String := trim (trimStartMatches line key)
  if startsWith line "Version:" then { p with version := value "Version:" }
  else if startsWith line "Status:" then p
  else if startsWith line "Description:" then { p with description := value "Description:" }
  else if startsWith line "Depends:" then
    { p with dependencies := (split (value "Depends:") ',').map fun s => (splitWhitespace s).headD "" }
  else if startsWith line "Installed-Size:" then
    { p with sizeInstalled := some (value "Installed-Size:" ++ " KB") }
  else p

/-- What `apt list` knows of a package that is not installed. -/
def availablePackage (name listOutput : String) : Option Package :=
  if contains listOutput name then
    match splitWhitespace (((lines listOutput).find? (contains · name)).getD "") with
    | _ :: version :: _ :: _ =>
      some { name, version, status := .available, upgradable := false, latestVersion := some version }
    | _ => none
  else none

def getPackage (name : String) : Op (Option Package) := do
  match ← Fallible.attempt (runDpkg ["-s", .request name]) with
  | .error _ =>
    let listOutput ← runAptCli ["list", .request name]
    return availablePackage name listOutput
  | .ok dpkgInfo =>
    let blank : Package := { name, version := "", status := .installed, upgradable := false, latestVersion := none }
    let p := (lines dpkgInfo).foldl dpkgLine blank
    let upgradable ← unwrapOr false do
      let output ← runAptCli ["list", "--upgradable", .request name]
      return contains output name
    let latestVersion ←
      if upgradable then unwrapOr none do
        let output ← runAptCache ["policy", .request name]
        return ((lines output).find? (contains · "Candidate")).bind secondWord
      else pure (some p.version)
    return some { p with upgradable, latestVersion }

/-- A line of `apt list --upgradable`. -/
def patchOfLine (line : String) : Option Patch :=
  if startsWith line "Listing..." then none
  else match splitWhitespace line with
    | first :: second :: third :: _ =>
      some (Patch.of ((split first '/').headD first) second third "Package update available")
    | _ => none

def listPatches : Op (List Patch) := do
  let output ← runAptCli ["list", "--upgradable"]
  return (lines output).filterMap patchOfLine

def getInstalledVersion (name : String) : Op (Option String) :=
  unwrapOr none do
    let output ← runDpkg ["-s", .request name]
    let versions := ((lines output).filter (startsWith · "Version:")).map fun line =>
      trim (trimStartMatches line "Version:")
    return versions.find? fun version => !version.isEmpty

def getCandidateVersion (name : String) : Op (Option String) :=
  unwrapOr none do
    let output ← runAptCache ["policy", .request name]
    return ((lines output).find? (contains · "Candidate:")).bind secondWord

/-! ## Mutations -/

def installPackages (packages : List PackageSpec) (options : InstallOptions) : Op Unit := do
  let args : List Arg := ["install", "-y"]
  let noRecommends : List Arg := if options.noRecommends then ["--no-install-recommends"] else []
  let force : List Arg := if options.force then ["--allow-unauthenticated"] else []
  let separator : List Arg := ["--"]
  let _ ← runApt (args ++ noRecommends ++ force ++ separator ++ packages.map (PackageSpec.arg "="))

def updatePackage (name : String) : Op Unit := do
  let _ ← runApt ["install", "-y", "--only-upgrade", "--", .request name]

def removePackage (name : String) (purge : Bool) : Op Unit := do
  let args : List Arg := if purge then ["purge", "-y", "--", .request name] else ["remove", "-y", "--", .request name]
  let _ ← runApt args

/-- `fallback_to_hold_respecting_upgrade`. -/
def fallbackToHoldRespectingUpgrade : Op String := do
  let held ← unwrapOr "" (runCommandTimed "apt-mark" ["showhold"] quickOpTimeout)
  let _ ← runApt ["upgrade", "-y"]
  return trim held

def heldPackagePartialFailure (held : String) : AnyhowError :=
  anyhow ("dist-upgrade blocked by held packages [" ++ held ++ "]; the safe subset was upgraded but the held packages " ++
    "and their entangled dependencies remain unpatched — manual review required (the post-apply patch scan lists what " ++
    "stayed unpatched)")

/-- The fallback after a held-package block: it fails also when the upgrade succeeds. -/
def heldFallback (failure : String) : Op Unit := do
  match ← Fallible.attempt fallbackToHoldRespectingUpgrade with
  | .ok held => throw (heldPackagePartialFailure held)
  | .error upgradeErr => throw (upgradeErr.context failure)

def loweredStderr (e : AnyhowError) : String := toLowercase ((extractStderr e).getD "")

def blockedByHeld (stderr : String) : Bool :=
  contains stderr "held packages were changed" && contains stderr "--allow-change-held-packages"

def dependencyIssue (stderr : String) : Bool :=
  contains stderr "unmet dependencies" || contains stderr "broken" || contains stderr "dependency"

def fixBroken (failure : String) : Op Unit := do
  match ← Fallible.attempt (runApt ["-f", "install", "-y"]) with
  | .ok _ => return ()
  | .error e => throw (e.context failure)

def patchArgs (packages : Option (List String)) : List Arg :=
  match packages with
  | some pkgs => (["install", "-y", "--"] : List Arg) ++ pkgs.map Arg.request
  | none => ["dist-upgrade", "-y"]

/-- Before everything is upgraded, broken dependencies are fixed. -/
def fixBeforeUpgrade (packages : Option (List String)) : Op Unit :=
  match packages with
  | some _ => return ()
  | none => fixBroken "Pre-upgrade fix-broken failed — resolve dependency issues before retrying"

/-- The second and last attempt, after fix-broken. -/
def retryPatches (packages : Option (List String)) (args : List Arg) : Op Unit := do
  fixBroken "fix-broken failed on retry — dependency issues remain unresolved"
  match ← Fallible.attempt (runApt args) with
  | .ok _ => return ()
  | .error retryErr =>
    if packages.isNone && blockedByHeld (loweredStderr retryErr) then
      heldFallback ("held-package fallback (apt-get upgrade) failed on dist-upgrade retry — blocked by held packages " ++
        "and the fallback upgrade also failed")
    else throw retryErr

/-- The first attempt, with what follows from its error. -/
def attemptPatches (packages : Option (List String)) (args : List Arg) : Op Unit := do
  match ← Fallible.attempt (runApt args) with
  | .ok _ => return ()
  | .error e =>
    if packages.isNone && blockedByHeld (loweredStderr e) then
      heldFallback ("held-package fallback (apt-get upgrade) failed — dist-upgrade was blocked by held packages and " ++
        "the fallback upgrade also failed")
    else if dependencyIssue (loweredStderr e) then retryPatches packages args
    else throw e

def applyPatches (packages : Option (List String)) : Op Unit := do
  fixBeforeUpgrade packages
  attemptPatches packages (patchArgs packages)

def refreshPackageCache : Op Unit := recordRefresh "APT" (runApt ["update"])

def repairPackageDatabase : Op Unit := do
  ensureDpkgClean
  verifyDpkgClean

def packageDatabaseClean : Op Bool := do
  let output ← runDpkg ["--audit"]
  return (trim output).isEmpty

/-! ## Services -/

def getServiceStatus (name : String) : Op (Option ServiceStatus) :=
  withServiceName name do
    let isSystemd ← pathExists "/run/systemd/system"
    let isOpenrc ← pathExists "/sbin/openrc"
    if isSystemd then getSystemdServiceStatus name
    else if isOpenrc then getOpenrcServiceStatus name
    else throw (anyhow "No supported init system detected (systemd or OpenRC required)")

def backend : PackageManagerBackend where
  listPackages := listPackages
  getPackage := getPackage
  installPackages := installPackages
  updatePackage := updatePackage
  removePackage := removePackage
  listPatches := listPatches
  applyPatches := applyPatches
  getSystemInfo := getSystemInfo
  rebootSystem := rebootSystem
  getServiceStatus := getServiceStatus
  refreshPackageCache := refreshPackageCache
  getInstalledVersion := getInstalledVersion
  getCandidateVersion := getCandidateVersion
  repairPackageDatabase := repairPackageDatabase
  packageDatabaseClean := packageDatabaseClean
  restartOwnService := restartOwnServiceDefault

end AptBackend

end LinuxPatchApi.Packages
