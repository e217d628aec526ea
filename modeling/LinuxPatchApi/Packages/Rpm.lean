/-
`DnfBackend` and `YumBackend` of `src/packages/mod.rs`: package operations on Fedora, RHEL and CentOS.
What the two backends do alike is defined once, for either tool.
-/
import LinuxPatchApi.Packages.Apk

namespace LinuxPatchApi.Packages

open Text Interaction

namespace Rpm

def runRpm (args : List Arg) : Op String := runCommandTimed "rpm" args quickOpTimeout

def parseRpmNameVersion (ident : String) : String × String := splitNameVersion ident

/-! ## Parsing -/

/-- The second piece of a line that is split at colons, trimmed. -/
def fieldValue (line : String) : String := trim ((split line ':').getD 1 "")

/-- A package identifier without its architecture. -/
def withoutArch (ident : String) : String :=
  match rsplitOnce ident '.' with
  | some (base, suffix) => if suffix.toList.all (fun c => isAsciiAlphanumeric c || c == '_') then base else ident
  | none => ident

/-- A name without what follows its last dot. -/
def beforeLastDot (fullName : String) : String := ((rsplitOnce fullName '.').map Prod.fst).getD fullName

/-- A line of `rpm -qa`. -/
def parsePackageLine (line : String) : Option Package :=
  let trimmed := trim line
  if trimmed.isEmpty then none
  else
    let (name, version) := parseRpmNameVersion (withoutArch trimmed)
    some { name, version, status := .installed, upgradable := false, latestVersion := none }

def parseRpmPackageList (output : String) : List Package := (lines output).filterMap parsePackageLine

/-- What `rpm -qi` or `info` of the tool tells, and whether the lines are those of the description. -/
structure InfoState where
  version : String := ""
  release : String := ""
  description : String := ""
  sizeInstalled : Option String := none
  installDate : Option String := none
  inDescription : Bool := false

def InfoState.fullVersion (st : InfoState) : String :=
  if st.release.isEmpty then st.version else st.version ++ "-" ++ st.release

/-- A line that is not inside the description. -/
def infoField (st : InfoState) (line : String) : InfoState :=
  if startsWith line "Version" then { st with version := fieldValue line }
  else if startsWith line "Release" then { st with release := fieldValue line }
  else if startsWith line "Install Date" then { st with installDate := some (fieldValue line) }
  else if startsWith line "Size" then { st with sizeInstalled := some (fieldValue line) }
  else if startsWith line "Summary" then
    if st.description.isEmpty then { st with description := fieldValue line } else st
  else if startsWith line "Description" then
    let st := { st with inDescription := true }
    if (fieldValue line).isEmpty then st else { st with description := fieldValue line }
  else st

/-- One line of `rpm -qi`: the description goes on while lines are indented or empty. -/
def infoLine (st : InfoState) (line : String) : InfoState :=
  if st.inDescription then
    if startsWith line " " || line.isEmpty then
      let sep := if st.description.isEmpty then "" else " "
      { st with description := st.description ++ sep ++ trim line }
    else infoField { st with inDescription := false } line
  else infoField st line

/-- One line of `info` of the tool for a package that is not installed. -/
def availableLine (st : InfoState) (line : String) : InfoState :=
  if startsWith line "Version" then { st with version := fieldValue line }
  else if startsWith line "Release" then { st with release := fieldValue line }
  else if startsWith line "Description" then
    if (fieldValue line).isEmpty then st else { st with description := fieldValue line }
  else st

/-- The new version in a line of `check-update` about the package. -/
def candidateInLine (name line : String) : Option String :=
  match splitWhitespace line with
  | full :: version :: _ =>
    if startsWith full name && (rsplitOnce full '.').any (fun p => p.1 == name) then some version else none
  | _ => none

/-- A line of `rpm -qR`. -/
def dependencyOfLine (line : String) : Option String :=
  let dep := trim line
  if dep.isEmpty then none
  else
    let depName := (splitWhitespace dep).headD ""
    if startsWith depName "rpmlib" || startsWith depName "rtld" then none else some depName

/-! ## Queries -/

section Tool

variable (tool : String)

/-- Whether an update is available, and its version: `check-update` with an output that carries the exit
code 100. -/
def checkUpdate (name fullVersion : String) : Op (Bool × Option String) := do
  match ← tryRun tool ["check-update", "-q", .request name] with
  | some o =>
    if o.statusCode == some 100 then return (true, (lines o.stdout).findSome? (candidateInLine name))
    else return (false, some fullVersion)
  | none => return (false, some fullVersion)

def parseRpmInfo (output name : String) : Op (Option Package) := do
  let st : InfoState := (lines output).foldl infoLine {}
  let (upgradable, latestVersion) ← checkUpdate tool name st.fullVersion
  let dependencies ← unwrapOr [] do
    let depsOutput ← runRpm ["-qR", .request name]
    return (lines depsOutput).filterMap dependencyOfLine
  return some {
    name, version := st.fullVersion, status := .installed, upgradable, latestVersion
    description := st.description, dependencies, installDate := st.installDate, sizeInstalled := st.sizeInstalled }

def listPackages (filter : Option String) : Op (List Package) := do
  let args : List Arg := match filter with
    | some f => ["-qa", .request f]
    | none => ["-qa"]
  let output ← runRpm args
  let packages := parseRpmPackageList output
  match filter with
  | some f => return packages.filter fun p => contains p.name f
  | none => return packages

/-- What the tool knows of a package that is not installed. -/
def availablePackage (name : String) : Op (Option Package) := do
  match ← tryRun tool ["info", "-q", .request name] with
  | some output =>
    if output.success then
      let st : InfoState := (lines output.stdout).foldl availableLine {}
      return some {
        name, version := st.fullVersion, status := .available, upgradable := false, latestVersion := none
        description := st.description }
    else return none
  | none => return none

def lookUpPackage (name : String) : Op (Option Package) := do
  match ← Fallible.attempt (runRpm ["-q", .request name]) with
  | .error _ => availablePackage tool name
  | .ok _ =>
    let infoOutput ← runRpm ["-qi", .request name]
    parseRpmInfo tool infoOutput name

def getPackage (name : String) : Op (Option Package) := checkedName name (lookUpPackage tool name)

/-- The patch in a line of `check-update`; the installed version is asked for. -/
def patchOfLine (line : String) : Op (Option Patch) := do
  match splitWhitespace (trim line) with
  | fullName :: availableVersion :: repo :: _ =>
    let name := beforeLastDot fullName
    let current ← unwrapOr "" (runRpm ["-q", "--qf", "%\x7bVERSION\x7d-%\x7bRELEASE\x7d", .own name])
    return some (Patch.of name (trim current) availableVersion ("Package update available from " ++ repo))
  | _ => return none

def patchesOfLines : List String → Op (List Patch)
  | [] => return []
  | line :: rest => do
    let patch ← patchOfLine line
    let patches ← patchesOfLines rest
    return patch.toList ++ patches

/-- `check-update` exits with 100 when there are updates; it runs without a deadline. -/
def listPatches : Op (List Patch) := do
  let stdout ← runCommandWithAcceptableExit tool ["check-update", "-q"] [0, 100] none
  patchesOfLines (lines stdout)

def getInstalledVersion (name : String) : Op (Option String) :=
  unwrapOr none do
    let output ← runRpm ["-q", "--qf", "%\x7bVERSION\x7d-%\x7bRELEASE\x7d", .request name]
    return nonemptyVersion (trim output)

def getCandidateVersion (name : String) : Op (Option String) := do
  match ← tryRun tool ["info", "-q", .request name] with
  | some o =>
    if o.success then
      let st : InfoState := (lines o.stdout).foldl availableLine {}
      return if st.version.isEmpty then none else some st.fullVersion
    else return none
  | none => return none

end Tool

def repairPackageDatabase : Op Unit := do
  let _ ← runRpm ["--rebuilddb"]

def getServiceStatus (name : String) : Op (Option ServiceStatus) := withServiceName name (getSystemdServiceStatus name)

end Rpm

/-! ## DNF -/

namespace DnfBackend

def runDnf (args : List Arg) : Op String := runCommandTimed "dnf" args (timeoutFor ["check-update", "makecache"] args)

def installPackages (packages : List PackageSpec) (options : InstallOptions) : Op Unit := do
  let args : List Arg := ["install", "-y"]
  let noRecommends : List Arg := if options.noRecommends then ["--setopt=install_weak_deps=0"] else []
  let force : List Arg := if options.force then ["--allowerasing"] else []
  -- no separator: dnf5 rejects it
  let _ ← runDnf (args ++ noRecommends ++ force ++ packages.map (PackageSpec.arg "-"))

def updatePackage (name : String) : Op Unit := do
  let _ ← runDnf ["upgrade", "-y", .request name]

def removePackage (name : String) (purge : Bool) : Op Unit := do
  let args : List Arg :=
    if purge then ["remove", "-y", "--noautoremove", .request name] else ["remove", "-y", .request name]
  let _ ← runDnf args

def applyPatches (packages : Option (List String)) : Op Unit := do
  let args : List Arg := match packages with
    | some pkgs => "upgrade" :: "-y" :: pkgs.map Arg.request
    | none => ["upgrade", "-y"]
  let _ ← runDnf args

def refreshPackageCache : Op Unit :=
  recordRefresh "DNF"
    (runCommandWithAcceptableExit "dnf" ["check-update", "--refresh"] [0, 100] (some cacheRefreshTimeout))

def backend : PackageManagerBackend where
  listPackages := Rpm.listPackages
  getPackage := Rpm.getPackage "dnf"
  installPackages := installPackages
  updatePackage := updatePackage
  removePackage := removePackage
  listPatches := Rpm.listPatches "dnf"
  applyPatches := applyPatches
  getSystemInfo := getSystemInfo
  rebootSystem := rebootSystem
  getServiceStatus := Rpm.getServiceStatus
  refreshPackageCache := refreshPackageCache
  getInstalledVersion := Rpm.getInstalledVersion
  getCandidateVersion := Rpm.getCandidateVersion "dnf"
  repairPackageDatabase := Rpm.repairPackageDatabase
  restartOwnService := restartOwnServiceDefault

end DnfBackend

/-! ## YUM -/

namespace YumBackend

def runYum (args : List Arg) : Op String := runCommandTimed "yum" args (timeoutFor ["makecache"] args)

/-- Neither option has a counterpart in yum. -/
def installPackages (packages : List PackageSpec) (_options : InstallOptions) : Op Unit := do
  let args : List Arg := ["install", "-y", "--"]
  let _ ← runYum (args ++ packages.map (PackageSpec.arg "-"))

def updatePackage (name : String) : Op Unit := do
  let _ ← runYum ["update", "-y", "--", .request name]

def removePackage (name : String) (_purge : Bool) : Op Unit := do
  let _ ← runYum ["remove", "-y", "--", .request name]

def applyPatches (packages : Option (List String)) : Op Unit := do
  let args : List Arg := match packages with
    | some pkgs => "update" :: "-y" :: "--" :: pkgs.map Arg.request
    | none => ["update", "-y"]
  let _ ← runYum args

def refreshPackageCache : Op Unit := recordRefresh "YUM" (runYum ["makecache"])

def backend : PackageManagerBackend where
  listPackages := Rpm.listPackages
  getPackage := Rpm.getPackage "yum"
  installPackages := installPackages
  updatePackage := updatePackage
  removePackage := removePackage
  listPatches := Rpm.listPatches "yum"
  applyPatches := applyPatches
  getSystemInfo := getSystemInfo
  rebootSystem := rebootSystem
  getServiceStatus := Rpm.getServiceStatus
  refreshPackageCache := refreshPackageCache
  getInstalledVersion := Rpm.getInstalledVersion
  getCandidateVersion := Rpm.getCandidateVersion "yum"
  repairPackageDatabase := Rpm.repairPackageDatabase
  restartOwnService := restartOwnServiceDefault

end YumBackend

end LinuxPatchApi.Packages
